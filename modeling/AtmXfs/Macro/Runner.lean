import AtmXfs.Macro.Recorder

namespace AtmXfs.Macro

open Js RecordingSession

/-- The branches of `executeStep`. -/
inductive Handler where
  | select | insert | inserted | readTracks | ejected
  | beginPin | keyPressed | enterPin
  | notesPresented
  | printed
  | selectTransaction | submitAmount | confirm | cancel | wait | injectError | clearError
  | sessionState | lastTransaction
  deriving DecidableEq

namespace MacroStep

def does (step : MacroStep) (kind : MacroStepKind) (operation : String) : Bool :=
  step.kind = kind ∧ step.operation = some (utf16 operation)

/-- A step with a device has an operation, so this reads no property of `undefined`. -/
def checks (step : MacroStep) (start : String) : Bool :=
  step.kind = .checkpoint ∧ step.operation.any (utf16 start).isPrefixOf

end MacroStep

def cardHandler (step : MacroStep) : Option Handler :=
  if step.does .action "Select" then some .select
  else if step.does .action "Insert" then some .insert
  else if step.checks "Checkpoint(Insert" then some .inserted
  else if step.checks "Checkpoint(ReadTracks" then some .readTracks
  else if step.checks "Checkpoint(Ejected" then some .ejected
  else none

def pinPadHandler (step : MacroStep) : Option Handler :=
  if step.does .action "BeginPin" then some .beginPin
  else if step.does .action "KeyPressed" then some .keyPressed
  else if step.does .action "EnterPin" then some .enterPin
  else none

def systemHandler (step : MacroStep) : Option Handler :=
  if step.does .action "SelectTransaction" then some .selectTransaction
  else if step.does .action "SubmitAmount" then some .submitAmount
  else if step.does .action "Confirm" then some .confirm
  else if step.does .action "Cancel" then some .cancel
  else if step.kind = .wait then some .wait
  else if step.does .action "InjectError" then some .injectError
  else if step.does .action "ClearError" then some .clearError
  else if step.checks "Checkpoint(SessionState" then some .sessionState
  else if step.checks "Checkpoint(LastTransaction" then some .lastTransaction
  else none

/-- The branch that `executeStep` takes; `none` is its last line, `unsupported step`. -/
def dispatch (step : MacroStep) : Option Handler :=
  match step.device with
  | some .card => cardHandler step
  | some .pinPad => pinPadHandler step
  | some .cash =>
    if step.checks "Checkpoint(NotesPresented" then some .notesPresented else none
  | some .receipt => if step.checks "Checkpoint(Printed" then some .printed else none
  | some .system => systemHandler step
  | some .screen => none
  | none => none

/-- Why a step fails: its own branch throws, or it has none. -/
inductive StepError where
  | failed (message : Text)
  | unsupported (step : MacroStep)
  deriving DecidableEq

/-- `handle` is what a branch does to the ATM, its devices and the context of the run. -/
def executeStep {ω : Type} (handle : Handler → MacroStep → ω → ω × Option Text)
    (step : MacroStep) (w : ω) : ω × Option StepError :=
  match dispatch step with
  | some handler => ((handle handler step w).1, (handle handler step w).2.map .failed)
  | none => (w, some (.unsupported step))

def runSteps {ω : Type} (handle : Handler → MacroStep → ω → ω × Option Text) :
    List MacroStep → ω → ω × Option StepError
  | [], w => (w, none)
  | step :: rest, w =>
    match executeStep handle step w with
    | (w, none) => runSteps handle rest w
    | (w, some error) => (w, some error)

/-- The steps of a macro that `run` goes through, in its order. -/
def runOrder (steps : List MacroStep) : List MacroStep :=
  (steps.filter (·.enabled)).mergeSort fun a b => a.order ≤ b.order

def run {ω : Type} (handle : Handler → MacroStep → ω → ω × Option Text)
    (steps : List MacroStep) (w : ω) : ω × Option StepError :=
  runSteps handle (runOrder steps) w

/-- A recorded macro is run as it was saved. -/
theorem runOrder_recorded (inputs : List Input) :
    runOrder (recorded inputs) = startRecording.saved inputs := by
  obtain ⟨hascending, henabled⟩ := numbered_recording inputs
  have hfilter : (startRecording.saved inputs).filter (·.enabled) = startRecording.saved inputs :=
    List.filter_eq_self.mpr fun step hstep => (henabled step hstep).2
  rw [runOrder, recorded_eq, hfilter]
  exact mergeSort_numbered hascending

/-- Only a step without a branch is refused as unsupported. -/
theorem runSteps_supported {ω : Type} (handle : Handler → MacroStep → ω → ω × Option Text)
    {steps : List MacroStep} (h : ∀ step ∈ steps, (dispatch step).isSome) (w : ω)
    (step : MacroStep) : (runSteps handle steps w).2 ≠ some (.unsupported step) := by
  induction steps generalizing w with
  | nil => simp [runSteps]
  | cons first rest ih =>
    obtain ⟨handler, hhandler⟩ := Option.isSome_iff_exists.mp (h first (List.mem_cons_self ..))
    have hrest := ih fun step hstep => h step (List.mem_cons_of_mem _ hstep)
    cases hresult : handle handler first w with
    | mk w' message =>
      cases message with
      | none =>
        simp only [runSteps, executeStep, hhandler, hresult]
        exact hrest w'
      | some message => simp [runSteps, executeStep, hhandler, hresult]

/-- A run fails at most on what its steps meet. -/
theorem run_supported {ω : Type} (handle : Handler → MacroStep → ω → ω × Option Text)
    {steps : List MacroStep} (h : ∀ step ∈ steps, (dispatch step).isSome) (w : ω)
    (step : MacroStep) : (run handle steps w).2 ≠ some (.unsupported step) := by
  refine runSteps_supported handle (fun step hstep => h step ?_) w step
  exact (List.mem_filter.mp (List.mem_mergeSort.mp hstep)).1

end AtmXfs.Macro
