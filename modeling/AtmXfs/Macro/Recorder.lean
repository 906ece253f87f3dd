import AtmXfs.Lib.JsNumber
import AtmXfs.Lib.JsString

namespace AtmXfs.Macro

open Js

inductive MacroStepKind where
  | action | checkpoint | assertion | wait
  deriving DecidableEq

inductive MacroDevice where
  | card | pinPad | cash | receipt | screen | system
  deriving DecidableEq

inductive ParameterType where
  | string | number | boolean | variable
  deriving DecidableEq

inductive ParameterValue where
  | text (s : Text)
  | number (n : Number)
  | boolean (b : Bool)
  deriving DecidableEq

structure MacroParameter where
  name : Text
  type : ParameterType
  value : ParameterValue
  displayLabel : Option Text
  deriving DecidableEq

/-- A step as it is saved; `none` stands for `undefined`. -/
structure MacroStep where
  order : Nat
  kind : MacroStepKind
  device : Option MacroDevice
  operation : Option Text
  parameters : List MacroParameter
  enabled : Bool
  deriving DecidableEq

inductive UserAction where
  | cardInsert (pan : Text)
  | keyPress (key : Text)
  | selectTransaction (txnType : Text)
  | submitAmount (amount : Number)
  | confirm
  | cancel (reason : Option Text)
  deriving DecidableEq

/-- What the recorder is subscribed to: user actions and XFS events. -/
inductive Input where
  | userAction (action : UserAction)
  | xfsEvent (eventCode : Text)
  deriving DecidableEq

structure RecordingSession where
  steps : List MacroStep
  counter : Nat
  digitBuffer : Text
  absorbNextEnter : Bool
  deriving DecidableEq

/-- The session that `startRecording` makes active. -/
def startRecording : RecordingSession := ⟨[], 1, [], false⟩

namespace RecordingSession

def pushStep (s : RecordingSession) (kind : MacroStepKind) (device : Option MacroDevice)
    (operation : Option Text) (parameters : List MacroParameter) : RecordingSession :=
  { s with
    steps := s.steps ++ [⟨s.counter, kind, device, operation, parameters, true⟩]
    counter := s.counter + 1 }

end RecordingSession

/-- A run of digits that is taken for a PIN. -/
def isPinShape (digits : Text) : Bool := 4 ≤ digits.length ∧ digits.length ≤ 12

def pinParameter (digits : Text) : MacroParameter :=
  ⟨utf16 "pin", .variable, .text (utf16 "Card.pin"),
    some (utf16 "Card.pin (" ++ decimal digits.length ++ utf16 " digits)")⟩

def keyParameter (key : Text) : MacroParameter := ⟨utf16 "key", .string, .text key, none⟩

/-- `/^[0-9]$/.test(key)`. -/
def isDigitKey : Text → Bool
  | [u] => isDigitUnit u
  | _ => false

def keyEnter : Text := utf16 "ENTER"

/-- The names of `Object.prototype`: a plain object answers to them with a value that is true
and has neither a device nor an operation. -/
def inherited : List Text :=
  [utf16 "constructor", utf16 "__defineGetter__", utf16 "__defineSetter__",
    utf16 "hasOwnProperty", utf16 "__lookupGetter__", utf16 "__lookupSetter__",
    utf16 "isPrototypeOf", utf16 "propertyIsEnumerable", utf16 "toString", utf16 "valueOf",
    utf16 "__proto__", utf16 "toLocaleString"]

/-- The lookup `EVENT_TO_CHECKPOINT[eventCode]`. -/
def eventToCheckpoint (eventCode : Text) : Option (Option MacroDevice × Option Text) :=
  if eventCode = utf16 "WFS_SRVE_IDC_MEDIAINSERTED" then
    some (some .card, some (utf16 "Checkpoint(Insert)"))
  else if eventCode = utf16 "WFS_SRVE_IDC_MEDIAREMOVED" then
    some (some .card, some (utf16 "Checkpoint(Ejected)"))
  else if eventCode = utf16 "WFS_SRVE_IDC_MEDIARETAINED" then
    some (some .card, some (utf16 "Checkpoint(Retained)"))
  else if eventCode = utf16 "WFS_EXEE_CDM_NOTESPRESENTED" then
    some (some .cash, some (utf16 "Checkpoint(NotesPresented)"))
  else if eventCode = utf16 "WFS_SRVE_CDM_ITEMSTAKEN" then
    some (some .cash, some (utf16 "Checkpoint(Taken)"))
  else if eventCode = utf16 "WFS_SRVE_PTR_MEDIAPRESENTED" then
    some (some .receipt, some (utf16 "Checkpoint(Printed)"))
  else if eventCode ∈ inherited then some (none, none)
  else none

namespace RecordingSession

def flushDigitBuffer (s : RecordingSession) : RecordingSession :=
  if s.digitBuffer.length = 0 then s
  else
    let digits := s.digitBuffer
    let s := { s with digitBuffer := [] }
    if isPinShape digits then
      { s.pushStep .action (some .pinPad) (some (utf16 "EnterPin")) [pinParameter digits] with
        absorbNextEnter := true }
    else s.pushStep .action (some .pinPad) (some (utf16 "KeyPressed")) [keyParameter digits]

def onKeyPress (s : RecordingSession) (key : Text) : RecordingSession :=
  if isDigitKey key then { s with digitBuffer := s.digitBuffer ++ key }
  else
    let s := s.flushDigitBuffer
    if key = keyEnter ∧ s.absorbNextEnter then { s with absorbNextEnter := false }
    else
      { s with absorbNextEnter := false }.pushStep .action (some .pinPad)
        (some (utf16 "KeyPressed")) [keyParameter key]

def onUserAction (s : RecordingSession) : UserAction → RecordingSession
  | .cardInsert pan =>
    (s.flushDigitBuffer.pushStep .action (some .card) (some (utf16 "Select"))
      [⟨utf16 "pan", .string, .text pan, some pan⟩]).pushStep .action (some .card)
        (some (utf16 "Insert")) []
  | .keyPress key => s.onKeyPress key
  | .selectTransaction txnType =>
    s.flushDigitBuffer.pushStep .action (some .system) (some (utf16 "SelectTransaction"))
      [⟨utf16 "txnType", .string, .text txnType, none⟩]
  | .submitAmount amount =>
    s.flushDigitBuffer.pushStep .action (some .system) (some (utf16 "SubmitAmount"))
      [⟨utf16 "amount", .number, .number amount, none⟩]
  | .confirm => s.flushDigitBuffer.pushStep .action (some .system) (some (utf16 "Confirm")) []
  | .cancel reason =>
    s.flushDigitBuffer.pushStep .action (some .system) (some (utf16 "Cancel"))
      -- an empty reason is not recorded
      (match reason with
        | none | some [] => []
        | some (u :: us) => [⟨utf16 "reason", .string, .text (u :: us), none⟩])

def onXfsEvent (s : RecordingSession) (eventCode : Text) : RecordingSession :=
  match eventToCheckpoint eventCode with
  | none => s
  | some (device, operation) => s.flushDigitBuffer.pushStep .checkpoint device operation []

def observe (s : RecordingSession) : Input → RecordingSession
  | .userAction action => s.onUserAction action
  | .xfsEvent eventCode => s.onXfsEvent eventCode

/-- The steps that `stopRecording` saves. -/
def stopRecording (s : RecordingSession) : List MacroStep :=
  s.flushDigitBuffer.steps.mergeSort fun a b => a.order ≤ b.order

end RecordingSession

/-- The macro of one recording. -/
def recorded (inputs : List Input) : List MacroStep :=
  (inputs.foldl RecordingSession.observe startRecording).stopRecording

namespace RecordingSession

theorem flushDigitBuffer_nil {s : RecordingSession} (h : s.digitBuffer = []) :
    s.flushDigitBuffer = s := by
  rw [flushDigitBuffer, if_pos (List.length_eq_zero_iff.mpr h)]

theorem flushDigitBuffer_pin {s : RecordingSession} (h : isPinShape s.digitBuffer = true) :
    s.flushDigitBuffer =
      ⟨s.steps ++ [⟨s.counter, .action, some .pinPad, some (utf16 "EnterPin"),
        [pinParameter s.digitBuffer], true⟩], s.counter + 1, [], true⟩ := by
  have hlength : s.digitBuffer.length ≠ 0 := by
    simp only [isPinShape, decide_eq_true_eq] at h
    omega
  rw [flushDigitBuffer, if_neg hlength]
  exact if_pos h

theorem flushDigitBuffer_keys {s : RecordingSession} (hne : s.digitBuffer ≠ [])
    (h : isPinShape s.digitBuffer = false) :
    s.flushDigitBuffer =
      ⟨s.steps ++ [⟨s.counter, .action, some .pinPad, some (utf16 "KeyPressed"),
        [keyParameter s.digitBuffer], true⟩], s.counter + 1, [], s.absorbNextEnter⟩ := by
  rw [flushDigitBuffer, if_neg (fun hlength => hne (List.length_eq_zero_iff.mp hlength))]
  exact if_neg (by simp [h])

theorem flushDigitBuffer_digitBuffer (s : RecordingSession) :
    s.flushDigitBuffer.digitBuffer = [] := by
  by_cases hempty : s.digitBuffer = []
  · rw [flushDigitBuffer_nil hempty, hempty]
  · cases hpin : isPinShape s.digitBuffer with
    | true => rw [flushDigitBuffer_pin hpin]
    | false => rw [flushDigitBuffer_keys hempty hpin]

theorem flushDigitBuffer_absorbNextEnter (s : RecordingSession) :
    s.flushDigitBuffer.absorbNextEnter = (s.absorbNextEnter || isPinShape s.digitBuffer) := by
  by_cases hempty : s.digitBuffer = []
  · rw [flushDigitBuffer_nil hempty, hempty]
    simp [isPinShape]
  · cases hpin : isPinShape s.digitBuffer with
    | true => simp [flushDigitBuffer_pin hpin]
    | false => simp [flushDigitBuffer_keys hempty hpin]

/-- The same recording with steps saved before it. -/
def after (earlier : List MacroStep) (s : RecordingSession) : RecordingSession :=
  { s with steps := earlier ++ s.steps }

/-- The same recording with no step saved yet. -/
def fresh (s : RecordingSession) : RecordingSession := { s with steps := [] }

variable (earlier : List MacroStep) (s : RecordingSession)

theorem after_fresh : s.fresh.after s.steps = s := by simp [after, fresh]

theorem pushStep_after (kind : MacroStepKind) (device : Option MacroDevice)
    (operation : Option Text) (parameters : List MacroParameter) :
    (s.after earlier).pushStep kind device operation parameters =
      (s.pushStep kind device operation parameters).after earlier := by
  simp [pushStep, after]

theorem flushDigitBuffer_after :
    (s.after earlier).flushDigitBuffer = s.flushDigitBuffer.after earlier := by
  unfold flushDigitBuffer
  by_cases hempty : s.digitBuffer.length = 0
  · simp [after, hempty]
  · cases hpin : isPinShape s.digitBuffer with
    | true => simp [after, hempty, hpin, pushStep]
    | false => simp [after, hempty, hpin, pushStep]

theorem onKeyPress_after (key : Text) :
    (s.after earlier).onKeyPress key = (s.onKeyPress key).after earlier := by
  by_cases hdigit : isDigitKey key = true
  · simp only [onKeyPress, hdigit, if_true]
    rfl
  · simp only [onKeyPress, hdigit, if_false, flushDigitBuffer_after, Bool.false_eq_true]
    by_cases henter : key = keyEnter ∧ s.flushDigitBuffer.absorbNextEnter
    · have habsorb : key = keyEnter ∧ (s.flushDigitBuffer.after earlier).absorbNextEnter := henter
      rw [if_pos henter, if_pos habsorb]
      rfl
    · have hkeep : ¬(key = keyEnter ∧ (s.flushDigitBuffer.after earlier).absorbNextEnter) := henter
      rw [if_neg henter, if_neg hkeep]
      exact pushStep_after earlier { s.flushDigitBuffer with absorbNextEnter := false } ..

/-- An input only adds steps behind those saved so far. -/
theorem observe_after (i : Input) :
    (s.after earlier).observe i = (s.observe i).after earlier := by
  cases i with
  | userAction action =>
    cases action with
    | keyPress key => exact onKeyPress_after earlier s key
    | cardInsert pan =>
      simp only [observe, onUserAction, flushDigitBuffer_after, pushStep_after]
    | selectTransaction txnType =>
      simp only [observe, onUserAction, flushDigitBuffer_after, pushStep_after]
    | submitAmount amount =>
      simp only [observe, onUserAction, flushDigitBuffer_after, pushStep_after]
    | confirm => simp only [observe, onUserAction, flushDigitBuffer_after, pushStep_after]
    | cancel reason => simp only [observe, onUserAction, flushDigitBuffer_after, pushStep_after]
  | xfsEvent eventCode =>
    simp only [observe, onXfsEvent]
    cases eventToCheckpoint eventCode with
    | none => rfl
    | some checkpoint => simp only [flushDigitBuffer_after, pushStep_after]

/-- The saved steps carry ascending orders and are enabled. -/
def Numbered (s : RecordingSession) : Prop :=
  s.steps.Pairwise (fun a b => a.order < b.order) ∧
    ∀ step ∈ s.steps, step.order < s.counter ∧ step.enabled = true

theorem numbered_pushStep {s : RecordingSession} (kind : MacroStepKind)
    (device : Option MacroDevice) (operation : Option Text) (parameters : List MacroParameter)
    (h : Numbered s) : Numbered (s.pushStep kind device operation parameters) := by
  obtain ⟨hascending, hbelow⟩ := h
  constructor
  · refine List.pairwise_append.mpr ⟨hascending, List.pairwise_singleton .., ?_⟩
    intro step hstep new hnew
    rw [List.mem_singleton.mp hnew]
    exact (hbelow step hstep).1
  · intro step hstep
    rcases List.mem_append.mp hstep with hstep | hstep
    · obtain ⟨horder, henabled⟩ := hbelow step hstep
      exact ⟨Nat.lt_succ_of_lt horder, henabled⟩
    · rw [List.mem_singleton.mp hstep]
      exact ⟨Nat.lt_succ_self _, rfl⟩

theorem numbered_flushDigitBuffer {s : RecordingSession} (h : Numbered s) :
    Numbered s.flushDigitBuffer := by
  have hcleared : Numbered { s with digitBuffer := [] } := h
  unfold flushDigitBuffer
  by_cases hempty : s.digitBuffer.length = 0
  · rw [if_pos hempty]
    exact h
  · rw [if_neg hempty]
    dsimp only
    split
    · exact numbered_pushStep .action _ _ [pinParameter s.digitBuffer] hcleared
    · exact numbered_pushStep _ _ _ _ hcleared

theorem numbered_onKeyPress {s : RecordingSession} (key : Text) (h : Numbered s) :
    Numbered (s.onKeyPress key) := by
  have hflushed := numbered_flushDigitBuffer h
  unfold onKeyPress
  split
  · exact h
  · dsimp only
    split
    · exact hflushed
    · exact numbered_pushStep (s := { s.flushDigitBuffer with absorbNextEnter := false })
        _ _ _ _ hflushed

theorem numbered_observe {s : RecordingSession} (i : Input) (h : Numbered s) :
    Numbered (s.observe i) := by
  have hflushed := numbered_flushDigitBuffer h
  cases i with
  | userAction action =>
    cases action with
    | keyPress key => exact numbered_onKeyPress key h
    | cardInsert pan => exact numbered_pushStep _ _ _ _ (numbered_pushStep _ _ _ _ hflushed)
    | selectTransaction txnType => exact numbered_pushStep _ _ _ _ hflushed
    | submitAmount amount => exact numbered_pushStep _ _ _ _ hflushed
    | confirm => exact numbered_pushStep _ _ _ _ hflushed
    | cancel reason => exact numbered_pushStep _ _ _ _ hflushed
  | xfsEvent eventCode =>
    simp only [observe, onXfsEvent]
    cases eventToCheckpoint eventCode with
    | none => exact h
    | some checkpoint => exact numbered_pushStep _ _ _ _ hflushed

/-- What a recording ends with, in the order the steps were pushed. -/
def saved (s : RecordingSession) (inputs : List Input) : List MacroStep :=
  (inputs.foldl observe s).flushDigitBuffer.steps

theorem foldl_observe_after (inputs : List Input) :
    inputs.foldl observe (s.after earlier) = (inputs.foldl observe s).after earlier := by
  induction inputs generalizing s with
  | nil => rfl
  | cons i inputs ih => rw [List.foldl_cons, observe_after, ih, List.foldl_cons]

theorem saved_cons (i : Input) (inputs : List Input) :
    s.saved (i :: inputs) = (s.observe i).steps ++ (s.observe i).fresh.saved inputs := by
  calc s.saved (i :: inputs)
      = (s.observe i).saved inputs := rfl
    _ = ((s.observe i).fresh.after (s.observe i).steps).saved inputs := by rw [after_fresh]
    _ = (s.observe i).steps ++ (s.observe i).fresh.saved inputs := by
      simp only [saved, foldl_observe_after, flushDigitBuffer_after]
      rfl

theorem numbered_foldl {s : RecordingSession} (inputs : List Input) (h : Numbered s) :
    Numbered (inputs.foldl observe s) := by
  induction inputs generalizing s with
  | nil => exact h
  | cons i inputs ih => exact ih (numbered_observe i h)

end RecordingSession

open RecordingSession

theorem mergeSort_numbered {steps : List MacroStep}
    (h : steps.Pairwise fun a b => a.order < b.order) :
    (steps.mergeSort fun a b => a.order ≤ b.order) = steps :=
  List.mergeSort_of_pairwise (h.imp fun hlt => decide_eq_true (Nat.le_of_lt hlt))

theorem numbered_recording (inputs : List Input) :
    Numbered (inputs.foldl observe startRecording).flushDigitBuffer :=
  numbered_flushDigitBuffer (numbered_foldl inputs ⟨List.Pairwise.nil, by simp [startRecording]⟩)

/-- `stopRecording` saves the steps in the order they were pushed. -/
theorem recorded_eq (inputs : List Input) : recorded inputs = startRecording.saved inputs :=
  mergeSort_numbered (numbered_recording inputs).1

end AtmXfs.Macro
