import Mathlib.Data.List.Basic

namespace AtmXfs.Xfs

inductive XfsResult where
  | success | errCancel | errDevNotReady | errHardwareError | errInvalidHService
  | errInternalError | errTimeout | errUserError | errUnsuppCommand | errServiceNotFound
  | errLocked | errNotStarted
  deriving DecidableEq

def XfsResult.code : XfsResult → Int
  | success => 0
  | errCancel => -1
  | errDevNotReady => -2
  | errHardwareError => -3
  | errInvalidHService => -4
  | errInternalError => -5
  | errTimeout => -6
  | errUserError => -7
  | errUnsuppCommand => -8
  | errServiceNotFound => -9
  | errLocked => -10
  | errNotStarted => -11

inductive XfsServiceState where
  | closed | opened | locked | busy | error
  deriving DecidableEq

/-- `checkInjectedError` before a command: a device with an injected error answers with it and has
none afterwards, and any other one executes the command. -/
def checkInjectedError {σ χ β : Type} (injectedError : σ → Option χ) (clearError : σ → σ)
    (injected : χ → β) (command : σ → β × σ) (s : σ) : β × σ :=
  match injectedError s with
  | some code => (injected code, clearError s)
  | none => command s

section
variable {σ χ β : Type} {injectedError : σ → Option χ} {clearError : σ → σ} {injected : χ → β}
  {command : σ → β × σ} {s : σ}

theorem checkInjectedError_some {code : χ} (h : injectedError s = some code) :
    checkInjectedError injectedError clearError injected command s =
      (injected code, clearError s) := by
  rw [checkInjectedError, h]

theorem checkInjectedError_none (h : injectedError s = none) :
    checkInjectedError injectedError clearError injected command s = command s := by
  rw [checkInjectedError, h]

end

/-- The state that every device inherits. -/
structure VirtualDeviceBase where
  state : XfsServiceState
  injectedError : Option XfsResult
  responseDelayMs : Nat
  deriving DecidableEq

/-- A device: what it inherits, and the state of its own class. -/
structure Device (σ : Type) extends VirtualDeviceBase where
  own : σ

/-- The promises that a command settles; a GET_PIN is settled by a later key, timer or command. -/
abbrev Settled (κ α : Type) := List (κ × Except String α)

/-- What a device class adds to the base class: the command that resets it, with what that does
to the class's own state, and the commands behind the check for an injected error. -/
structure DeviceClass (κ σ π α : Type) where
  resetCode : String
  codes : List String
  onReset : σ → κ → σ × Settled κ α
  perform : σ → String → π → κ → σ × Settled κ α

namespace Device

variable {κ σ π α : Type}

/-- The constructors of all devices end with `open`. -/
def opened (own : σ) : Device σ := ⟨⟨.opened, none, 200⟩, own⟩

def close (d : Device σ) : Device σ := { d with state := .closed }

/-- The inherited `reset`. -/
def reset (d : Device σ) : Device σ := { d with state := .opened, injectedError := none }

def injectError (d : Device σ) (result : XfsResult) : Device σ :=
  { d with injectedError := some result }

def clearError (d : Device σ) : Device σ := { d with injectedError := none }

def setResponseDelay (d : Device σ) (ms : Int) : Device σ :=
  { d with responseDelayMs := (max 0 (min ms 30000)).toNat }

def injectedMessage (result : XfsResult) : String :=
  "XFS injected error: " ++ toString result.code

/-- `executeCommand`, for the call that `caller` waits for. -/
def executeCommand (k : DeviceClass κ σ π α) (d : Device σ) (commandCode : String) (payload : π)
    (caller : κ) : Settled κ α × Device σ :=
  -- RESET always runs
  if commandCode = k.resetCode then
    let (own, settled) := k.onReset d.own caller
    (settled, { d.reset with own })
  else
    checkInjectedError (·.injectedError) clearError
      (fun result => [(caller, .error (injectedMessage result))])
      (fun d =>
        let (own, settled) := k.perform d.own commandCode payload caller
        (settled, { d with own })) d

@[simp] theorem reset_own (d : Device σ) : d.reset.own = d.own := rfl

@[simp] theorem clearError_injectError (d : Device σ) (result : XfsResult) :
    (d.injectError result).clearError = d.clearError := rfl

/-- The command after an injection answers with it and does nothing else. -/
theorem executeCommand_injected (k : DeviceClass κ σ π α) (d : Device σ) (result : XfsResult)
    {commandCode : String} (h : commandCode ≠ k.resetCode) (payload : π) (caller : κ) :
    (d.injectError result).executeCommand k commandCode payload caller =
      ([(caller, .error (injectedMessage result))], d.clearError) := by
  rw [executeCommand, if_neg h]
  rfl

theorem executeCommand_clear (k : DeviceClass κ σ π α) (d : Device σ) {commandCode : String}
    (h : commandCode ≠ k.resetCode) (payload : π) (caller : κ) :
    d.clearError.executeCommand k commandCode payload caller =
      ((k.perform d.own commandCode payload caller).2,
        { d.clearError with own := (k.perform d.own commandCode payload caller).1 }) := by
  rw [executeCommand, if_neg h]
  rfl

theorem executeCommand_reset (k : DeviceClass κ σ π α) (d : Device σ) (payload : π)
    (caller : κ) :
    d.executeCommand k k.resetCode payload caller =
      ((k.onReset d.own caller).2, { d.reset with own := (k.onReset d.own caller).1 }) := by
  rw [executeCommand, if_pos rfl]

end Device

end AtmXfs.Xfs
