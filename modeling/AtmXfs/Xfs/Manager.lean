import AtmXfs.Xfs.Devices
import Mathlib.Logic.Function.Basic

namespace AtmXfs.Xfs

open Js

inductive XfsServiceClass where
  | idc | pin | cdm | ptr | siu
  deriving DecidableEq

structure PinPayload where
  spec : Pin.PinGetPinPayload
  keyName : String
  pan : String

/-- The payload of a printer command, with the time it is executed at. -/
structure PtrPayload where
  now : Ptr.Instant
  form : Ptr.PtrPrintFormPayload
  data : Option Json

def ptrMessage : Ptr.PtrError → String
  | .outOfPaper => "out of paper"
  | .injected code => "XFS injected error: " ++ toString code
  | .unsupported commandCode => "Unsupported PTR command: " ++ Cdm.stringOf commandCode

/-- The own state of a device of each class; `κ` are the calls that wait for an answer. -/
def Own (κ : Type) : XfsServiceClass → Type
  | .idc => IdcState
  | .pin => Pin.Pad κ
  | .cdm => CdmState
  | .ptr => PtrState
  | .siu => SiuState

def Payload : XfsServiceClass → Type
  | .idc => Unit
  | .pin => PinPayload
  | .cdm => Option Json
  | .ptr => PtrPayload
  | .siu => Option SiuSetIndicatorPayload

def Answer : XfsServiceClass → Type
  | .idc => IdcResult
  | .pin => Pin.Answer
  | .cdm => Cdm.CdmResult
  | .ptr => Ptr.PtrResult
  | .siu => SiuResult

/-- An error is thrown with its message. -/
def thrown {ε α : Type} (message : ε → String) : Except ε α → Except String α
  | .ok a => .ok a
  | .error e => .error (message e)

def idcClass (κ : Type) : DeviceClass κ IdcState Unit IdcResult where
  resetCode := "WFS_CMD_IDC_RESET"
  codes := ["WFS_CMD_IDC_RESET", "WFS_CMD_IDC_READ_TRACK", "WFS_CMD_IDC_READ_RAW_DATA",
    "WFS_CMD_IDC_EJECT_CARD", "WFS_CMD_IDC_RETAIN_CARD", "WFS_CMD_IDC_CHIP_IO",
    "WFS_CMD_IDC_CHIP_POWER"]
  onReset := fun s caller => (⟨none, false, s.events⟩, [(caller, .ok .done)])
  perform := fun s commandCode _ caller =>
    ((s.perform commandCode).2, [(caller, (s.perform commandCode).1)])

def pinCommand (commandCode : String) (payload : PinPayload) : Pin.PinCommand :=
  if commandCode = "WFS_CMD_PIN_GET_PIN" then .getPin payload.spec
  else if commandCode = "WFS_CMD_PIN_GET_DATA" then .getData payload.spec
  else if commandCode = "WFS_CMD_PIN_GET_PINBLOCK" then .getPinBlock payload.keyName payload.pan
  else if commandCode = "WFS_CMD_PIN_GET_KEY_DETAIL" then .getKeyDetail
  else .other commandCode

def pinClass (κ : Type) : DeviceClass κ (Pin.Pad κ) PinPayload Pin.Answer where
  resetCode := "WFS_CMD_PIN_RESET"
  codes := ["WFS_CMD_PIN_RESET", "WFS_CMD_PIN_GET_PIN", "WFS_CMD_PIN_GET_DATA",
    "WFS_CMD_PIN_GET_PINBLOCK", "WFS_CMD_PIN_GET_KEY_DETAIL"]
  onReset := fun pad caller => pad.executeCommand .reset caller none
  perform := fun pad commandCode payload caller =>
    pad.executeCommand (pinCommand commandCode payload) caller none

def siuClass (κ : Type) :
    DeviceClass κ SiuState (Option SiuSetIndicatorPayload) SiuResult where
  resetCode := "WFS_CMD_SIU_RESET"
  codes := ["WFS_CMD_SIU_RESET", "WFS_CMD_SIU_ENABLE_EVENTS", "WFS_CMD_SIU_DISABLE_EVENTS",
    "WFS_CMD_SIU_SET_INDICATOR", "WFS_CMD_SIU_GET_SENSOR_STATUS"]
  onReset := fun s caller => (s.resetOwn, [(caller, .ok .done)])
  perform := fun s commandCode payload caller =>
    ((s.perform commandCode payload).2, [(caller, (s.perform commandCode payload).1)])

/-- `print` is the text of a number. -/
def cdmClass (κ : Type) (print : Number → String) :
    DeviceClass κ CdmState (Option Json) Cdm.CdmResult where
  resetCode := "WFS_CMD_CDM_RESET"
  codes := Cdm.commandCodes
  onReset := fun s caller =>
    (⟨(Cdm.executeCommand s.1 .reset).2, rfl⟩, [(caller, .ok .done)])
  perform := fun s commandCode payload caller =>
    (⟨(Cdm.executeRequest s.1 commandCode payload).2,
        Cdm.executeRequest_injectedError s.2 commandCode payload⟩,
      [(caller, thrown (Cdm.CdmError.message print)
        (Cdm.executeRequest s.1 commandCode payload).1)])

def ptrCommand (commandCode : String) (payload : PtrPayload) : Ptr.PtrCommand :=
  if commandCode = "WFS_CMD_PTR_PRINT_FORM" then .printForm payload.form
  else if commandCode = "WFS_CMD_PTR_RAW_DATA" then .rawData payload.data
  else if commandCode = "WFS_CMD_PTR_CUT_PAPER" then .cutPaper
  else .other (utf16 commandCode)

def ptrClass (κ : Type) : DeviceClass κ PtrState PtrPayload Ptr.PtrResult where
  resetCode := "WFS_CMD_PTR_RESET"
  codes := ["WFS_CMD_PTR_RESET", "WFS_CMD_PTR_PRINT_FORM", "WFS_CMD_PTR_RAW_DATA",
    "WFS_CMD_PTR_CUT_PAPER"]
  onReset := fun s caller => (s, [(caller, .ok .done)])
  perform := fun s commandCode payload caller =>
    let r := Ptr.executeCommand s.1 payload.now (ptrCommand commandCode payload)
    (⟨r.2, ptr_injectedError s.2 payload.now (ptrCommand commandCode payload)⟩,
      [(caller, thrown ptrMessage r.1)])

def classOf (κ : Type) (print : Number → String) :
    (c : XfsServiceClass) → DeviceClass κ (Own κ c) (Payload c) (Answer c)
  | .idc => idcClass κ
  | .pin => pinClass κ
  | .cdm => cdmClass κ print
  | .ptr => ptrClass κ
  | .siu => siuClass κ

/-- The response envelope; the payload is tagged with the class of its device. -/
structure XfsResponse where
  result : XfsResult
  payload : Option ((c : XfsServiceClass) × Answer c)
  errorDetail : Option String

/-- The payload of a command is what the device that gets it reads of it. -/
structure XfsCommand where
  hService : String
  commandCode : String
  payload : (c : XfsServiceClass) → Payload c

/-- The registered devices. -/
abbrev XfsManagerService (κ : Type) := (c : XfsServiceClass) → Device (Own κ c)

def xfsSuccess (c : XfsServiceClass) (payload : Answer c) : XfsResponse :=
  ⟨.success, some ⟨c, payload⟩, none⟩

def xfsError (result : XfsResult) (errorDetail : String) : XfsResponse :=
  ⟨result, none, some errorDetail⟩

/-- How `execute` answers once the command has ended, whatever it has thrown. -/
def respond (c : XfsServiceClass) : Except String (Answer c) → XfsResponse
  | .ok payload => xfsSuccess c payload
  | .error message => xfsError .errInternalError message

namespace XfsManagerService

variable {κ : Type} (print : Number → String)

def hServiceOf : XfsServiceClass → String
  | .idc => "IDC30"
  | .pin => "PIN30"
  | .cdm => "CDM30"
  | .ptr => "PTR30"
  | .siu => "SIU30"

def getService (hService : String) : Option XfsServiceClass :=
  [XfsServiceClass.idc, .pin, .cdm, .ptr, .siu].find? fun c => hServiceOf c = hService

def execute (m : XfsManagerService κ) (command : XfsCommand) (caller : κ) :
    List (κ × XfsResponse) × XfsManagerService κ :=
  match getService command.hService with
  | none =>
    ([(caller, xfsError .errServiceNotFound ("Unknown hService: " ++ command.hService))], m)
  | some c =>
    let (settled, d) :=
      (m c).executeCommand (classOf κ print c) command.commandCode (command.payload c) caller
    (settled.map fun e => (e.1, respond c e.2), Function.update m c d)

def injectError (m : XfsManagerService κ) (c : XfsServiceClass) (result : XfsResult) :
    XfsManagerService κ := Function.update m c ((m c).injectError result)

def clearError (m : XfsManagerService κ) (c : XfsServiceClass) : XfsManagerService κ :=
  Function.update m c (m c).clearError

/-- `XfsAdminController.reset`. -/
def reset (m : XfsManagerService κ) (c : XfsServiceClass) : XfsManagerService κ :=
  Function.update m c (m c).reset

/-- The devices as they are constructed. -/
def boot : XfsManagerService κ
  | .idc => .opened IdcState.init
  | .pin => .opened Pin.Pad.init
  | .cdm => .opened ⟨.new Cdm.initializeCassettes, rfl⟩
  | .ptr => .opened ⟨⟨1000, [], none, [], []⟩, rfl⟩
  | .siu => .opened SiuState.init

/-- A command code that a device answers to. -/
def implemented (c : XfsServiceClass) (commandCode : String) : Prop :=
  commandCode ∈ (classOf Unit (fun _ => "") c).codes

instance (c : XfsServiceClass) (commandCode : String) : Decidable (implemented c commandCode) := by
  unfold implemented
  infer_instance

def resetCode (c : XfsServiceClass) : String := (classOf Unit (fun _ => "") c).resetCode

/-- The command of this code for a device. -/
def commandFor (c : XfsServiceClass) (commandCode : String)
    (payload : (c : XfsServiceClass) → Payload c) : XfsCommand :=
  ⟨hServiceOf c, commandCode, payload⟩

/-- The one answer of a command is this result code. -/
def AnswersWith (answered : List (κ × XfsResponse)) (caller : κ) (result : XfsResult) : Prop :=
  ∃ r, answered = [(caller, r)] ∧ r.result = result

/-- An injected code comes out of the next command, which does nothing else; the one after it
finds no injection; and a command that the device lacks is refused as unsupported. -/
structure CarriesCode (m : XfsManagerService κ) (c : XfsServiceClass) (result : XfsResult)
    (commandCode : String) (payload : (c : XfsServiceClass) → Payload c) (caller : κ) : Prop where
  answer : AnswersWith ((m.injectError c result).execute print
    (commandFor c commandCode payload) caller).1 caller result
  consumed : ((m.injectError c result).execute print (commandFor c commandCode payload) caller).2 =
    m.clearError c
  after : ∀ command caller',
    ((m.injectError c result).execute print (commandFor c commandCode payload) caller).2.execute
      print command caller' = (m.clearError c).execute print command caller'
  unsupported : ¬ implemented c commandCode →
    AnswersWith ((m.clearError c).execute print (commandFor c commandCode payload) caller).1 caller
      .errUnsuppCommand

theorem getService_hServiceOf (c : XfsServiceClass) : getService (hServiceOf c) = some c := by
  cases c <;> decide

theorem resetCode_eq (c : XfsServiceClass) : (classOf κ print c).resetCode = resetCode c := by
  cases c <;> rfl

theorem execute_device (m : XfsManagerService κ) (c : XfsServiceClass) (commandCode : String)
    (payload : (c : XfsServiceClass) → Payload c) (caller : κ) :
    m.execute print (commandFor c commandCode payload) caller =
      (((m c).executeCommand (classOf κ print c) commandCode (payload c) caller).1.map
          fun e => (e.1, respond c e.2),
        Function.update m c
          ((m c).executeCommand (classOf κ print c) commandCode (payload c) caller).2) := by
  have hservice : getService (commandFor c commandCode payload).hService = some c :=
    getService_hServiceOf c
  rw [execute, hservice]
  rfl

/-- The code that was injected is written into the error's text; the response says that the
device failed inside. -/
theorem execute_injected (m : XfsManagerService κ) (c : XfsServiceClass) (result : XfsResult)
    {commandCode : String} (h : commandCode ≠ resetCode c)
    (payload : (c : XfsServiceClass) → Payload c) (caller : κ) :
    (m.injectError c result).execute print (commandFor c commandCode payload) caller =
      ([(caller, xfsError .errInternalError (Device.injectedMessage result))], m.clearError c) := by
  have hne : commandCode ≠ (classOf κ print c).resetCode := by
    rw [resetCode_eq]
    exact h
  have hdevice : (m.injectError c result) c = (m c).injectError result := Function.update_self ..
  rw [execute_device, hdevice, Device.executeCommand_injected _ _ _ hne, injectError,
    Function.update_idem]
  rfl

theorem cdm_unsupported (own : CdmState) {commandCode : String}
    (h : commandCode ∉ Cdm.commandCodes) (payload : Option Json) :
    (Cdm.executeRequest own.1 commandCode payload).1 = .error (.unsupported commandCode) := by
  rw [Cdm.executeRequest_other own.2 h]

theorem ptr_unsupported (own : PtrState) (now : Ptr.Instant) {command : Ptr.PtrCommand}
    {commandCode : Text} (h : command = .other commandCode) :
    (Ptr.executeCommand own.1 now command).1 = .error (.unsupported commandCode) := by
  rw [h, Ptr.executeCommand_none own.2]
  rfl

/-- A command that a device lacks is thrown out with a text. -/
theorem perform_unsupported (c : XfsServiceClass) (own : Own κ c) {commandCode : String}
    (h : ¬ implemented c commandCode) (payload : Payload c) (caller : κ) :
    ∃ message, ((classOf κ print c).perform own commandCode payload caller).2 =
      [(caller, .error message)] := by
  cases c with
  | idc =>
    have hother : ((own : IdcState).perform commandCode).1 =
        .error ("Unsupported IDC command: " ++ commandCode) := by
      simp only [implemented, classOf, idcClass, List.mem_cons, List.not_mem_nil, not_or] at h
      simp [IdcState.perform, h]
    refine ⟨"Unsupported IDC command: " ++ commandCode, ?_⟩
    change [(caller, ((own : IdcState).perform commandCode).1)] = _
    rw [hother]
    rfl
  | pin =>
    have hother : pinCommand commandCode payload = .other commandCode := by
      simp only [implemented, classOf, pinClass, List.mem_cons, List.not_mem_nil, not_or] at h
      simp [pinCommand, h]
    refine ⟨"Unsupported PIN command: " ++ commandCode, ?_⟩
    change ((own : Pin.Pad κ).executeCommand (pinCommand commandCode payload) caller none).2 = _
    rw [hother]
    rfl
  | cdm =>
    have hother := cdm_unsupported own h payload
    refine ⟨"Unsupported CDM command: " ++ commandCode, ?_⟩
    exact congrArg (fun r => [(caller, thrown (Cdm.CdmError.message print) r)]) hother
  | ptr =>
    have hother : ptrCommand commandCode payload = .other (utf16 commandCode) := by
      simp only [implemented, classOf, ptrClass, List.mem_cons, List.not_mem_nil, not_or] at h
      simp [ptrCommand, h]
    refine ⟨ptrMessage (.unsupported (utf16 commandCode)), ?_⟩
    have hthrown := ptr_unsupported own (payload : PtrPayload).now hother
    exact congrArg (fun r => [(caller, thrown ptrMessage r)]) hthrown
  | siu =>
    have hother : ((own : SiuState).perform commandCode payload).1 =
        .error ("Unsupported SIU command: " ++ commandCode) := by
      simp only [implemented, classOf, siuClass, List.mem_cons, List.not_mem_nil, not_or] at h
      simp [SiuState.perform, h]
    refine ⟨"Unsupported SIU command: " ++ commandCode, ?_⟩
    change [(caller, ((own : SiuState).perform commandCode payload).1)] = _
    rw [hother]
    rfl

theorem execute_unsupported (m : XfsManagerService κ) (c : XfsServiceClass) {commandCode : String}
    (h : ¬ implemented c commandCode) (hreset : commandCode ≠ resetCode c)
    (payload : (c : XfsServiceClass) → Payload c) (caller : κ) :
    AnswersWith ((m.clearError c).execute print (commandFor c commandCode payload) caller).1 caller
      .errInternalError := by
  have hne : commandCode ≠ (classOf κ print c).resetCode := by
    rw [resetCode_eq]
    exact hreset
  have hdevice : (m.clearError c) c = (m c).clearError := Function.update_self ..
  obtain ⟨message, hmessage⟩ := perform_unsupported print c (m c).own h (payload c) caller
  refine ⟨xfsError .errInternalError message, ?_, rfl⟩
  rw [execute_device, hdevice, Device.executeCommand_clear _ _ hne, hmessage]
  rfl

/-- An injected code comes out unchanged exactly if it is the code of every failure, and then
every command must be one that the device has. -/
theorem carriesCode_iff (m : XfsManagerService κ) (c : XfsServiceClass) (result : XfsResult)
    {commandCode : String} (h : commandCode ≠ resetCode c)
    (payload : (c : XfsServiceClass) → Payload c) (caller : κ) :
    m.CarriesCode print c result commandCode payload caller ↔
      result = .errInternalError ∧ implemented c commandCode := by
  have hexecute := execute_injected print m c result h payload caller
  constructor
  · intro hcarries
    constructor
    · obtain ⟨r, hr, hresult⟩ := hcarries.answer
      rw [hexecute] at hr
      cases hr
      exact hresult.symm
    · by_contra hlacks
      obtain ⟨r, hr, hresult⟩ := hcarries.unsupported hlacks
      obtain ⟨r', hr', hresult'⟩ := execute_unsupported print m c hlacks h payload caller
      rw [hr] at hr'
      cases hr'
      rw [hresult] at hresult'
      cases hresult'
  · intro hboth
    refine ⟨?_, ?_, ?_, fun hlacks => absurd hboth.2 hlacks⟩
    · rw [hexecute]
      exact ⟨_, rfl, hboth.1.symm⟩
    · rw [hexecute]
    · intro command caller'
      rw [hexecute]

/-- A command whose payload no device reads anything of. -/
def noPayload : (c : XfsServiceClass) → Payload c
  | .idc => ()
  | .pin => ⟨⟨.nan, .nan, false, [], []⟩, "", ""⟩
  | .cdm => none
  | .ptr => ⟨⟨[], [], []⟩, ⟨[], []⟩, none⟩
  | .siu => none

/-- The hardware error that the dispenser is told to report comes out as an internal error. -/
theorem injected_hardware_error :
    ¬ (boot : XfsManagerService Unit).CarriesCode (fun _ => "") .cdm .errHardwareError
      "WFS_CMD_CDM_CASH_UNIT_INFO" noPayload () := by
  intro h
  obtain ⟨r, hr, hresult⟩ := h.answer
  rw [execute_injected _ _ _ _ (by decide)] at hr
  cases hr
  cases hresult

theorem carriesCode_internal_error :
    "WFS_CMD_CDM_CASH_UNIT_INFO" ≠ resetCode .cdm ∧
      (boot : XfsManagerService Unit).CarriesCode (fun _ => "") .cdm .errInternalError
        "WFS_CMD_CDM_CASH_UNIT_INFO" noPayload () := by
  refine ⟨by decide, ?_⟩
  exact (carriesCode_iff _ boot .cdm .errInternalError (by decide) noPayload ()).mpr
    ⟨rfl, by decide⟩

end XfsManagerService

end AtmXfs.Xfs
