import AtmXfs.Macro.Runner

namespace AtmXfs.Macro

open Js RecordingSession

/-- Every step has a branch of `executeStep`. -/
def Supported (steps : List MacroStep) : Prop := ∀ step ∈ steps, (dispatch step).isSome = true

/-- Every step has a branch, and so no run of the macro ends at an unsupported step. -/
def Replayable (steps : List MacroStep) : Prop :=
  Supported steps ∧
    ∀ (ω : Type) (handle : Handler → MacroStep → ω → ω × Option Text) (w : ω) (step : MacroStep),
      (run handle steps w).2 ≠ some (.unsupported step)

/-- The events that are recorded as a checkpoint without a branch. -/
def unsupportedEvents : List Text :=
  utf16 "WFS_SRVE_IDC_MEDIARETAINED" :: utf16 "WFS_SRVE_CDM_ITEMSTAKEN" :: inherited

theorem supported_append {steps more : List MacroStep} :
    Supported (steps ++ more) ↔ Supported steps ∧ Supported more := by
  simp only [Supported, List.mem_append, or_imp, forall_and]

theorem supported_pushStep {s : RecordingSession} {kind : MacroStepKind}
    {device : Option MacroDevice} {operation : Option Text} {parameters : List MacroParameter}
    (h : Supported s.steps) :
    Supported (s.pushStep kind device operation parameters).steps ↔
      (dispatch ⟨s.counter, kind, device, operation, parameters, true⟩).isSome = true := by
  rw [pushStep, supported_append, and_iff_right h]
  simp [Supported]

theorem supported_flushDigitBuffer {s : RecordingSession} (h : Supported s.steps) :
    Supported s.flushDigitBuffer.steps := by
  have hcleared : Supported { s with digitBuffer := [] }.steps := h
  unfold flushDigitBuffer
  by_cases hempty : s.digitBuffer.length = 0
  · rw [if_pos hempty]
    exact h
  · rw [if_neg hempty]
    dsimp only
    split
    · have hpin : (dispatch ⟨s.counter, .action, some .pinPad, some (utf16 "EnterPin"),
          [pinParameter s.digitBuffer], true⟩).isSome = true := rfl
      exact (supported_pushStep hcleared).mpr hpin
    · exact (supported_pushStep hcleared).mpr rfl

theorem supported_onKeyPress {s : RecordingSession} (key : Text) (h : Supported s.steps) :
    Supported (s.onKeyPress key).steps := by
  have hflushed := supported_flushDigitBuffer h
  unfold onKeyPress
  split
  · exact h
  · dsimp only
    split
    · exact hflushed
    · have hkept : Supported { s.flushDigitBuffer with absorbNextEnter := false }.steps := hflushed
      exact (supported_pushStep hkept).mpr rfl

theorem supported_onUserAction {s : RecordingSession} (action : UserAction)
    (h : Supported s.steps) : Supported (s.onUserAction action).steps := by
  have hflushed := supported_flushDigitBuffer h
  cases action with
  | keyPress key => exact supported_onKeyPress key h
  | cardInsert pan =>
    have hselect : Supported (s.flushDigitBuffer.pushStep .action (some .card)
        (some (utf16 "Select")) [⟨utf16 "pan", .string, .text pan, some pan⟩]).steps :=
      (supported_pushStep hflushed).mpr rfl
    exact (supported_pushStep hselect).mpr rfl
  | selectTransaction txnType => exact (supported_pushStep hflushed).mpr rfl
  | submitAmount amount => exact (supported_pushStep hflushed).mpr rfl
  | confirm => exact (supported_pushStep hflushed).mpr rfl
  | cancel reason => exact (supported_pushStep hflushed).mpr rfl

theorem dispatch_order (order : Nat) (kind : MacroStepKind) (device : Option MacroDevice)
    (operation : Option Text) :
    dispatch ⟨order, kind, device, operation, [], true⟩ =
      dispatch ⟨0, kind, device, operation, [], true⟩ := rfl

/-- The checkpoints of the table, each against the branches of the runner. -/
theorem supported_checkpoint {eventCode : Text} {device : Option MacroDevice}
    {operation : Option Text} (h : eventToCheckpoint eventCode = some (device, operation))
    (order : Nat) :
    (dispatch ⟨order, .checkpoint, device, operation, [], true⟩).isSome = true ↔
      eventCode ∉ unsupportedEvents := by
  rw [dispatch_order]
  unfold eventToCheckpoint at h
  split_ifs at h with h₁ h₂ h₃ h₄ h₅ h₆ h₇
  · cases h
    rw [h₁]
    decide +kernel
  · cases h
    rw [h₂]
    decide +kernel
  · cases h
    rw [h₃]
    decide +kernel
  · cases h
    rw [h₄]
    decide +kernel
  · cases h
    rw [h₅]
    decide +kernel
  · cases h
    rw [h₆]
    decide +kernel
  · cases h
    exact iff_of_false (fun hsome => Bool.false_ne_true hsome)
      fun hnot => hnot (List.mem_cons_of_mem _ (List.mem_cons_of_mem _ h₇))

theorem recorded_of_unsupported {eventCode : Text} (h : eventCode ∈ unsupportedEvents) :
    eventToCheckpoint eventCode ≠ none := by
  have hall : ∀ code ∈ unsupportedEvents, eventToCheckpoint code ≠ none := by decide +kernel
  exact hall eventCode h

/-- One input: what it saves is supported, unless it is one of these events. -/
theorem supported_observe {s : RecordingSession} (i : Input) (h : Supported s.steps) :
    Supported (s.observe i).steps ↔
      ∀ eventCode, i = .xfsEvent eventCode → eventCode ∉ unsupportedEvents := by
  cases i with
  | userAction action =>
    exact iff_of_true (supported_onUserAction action h) fun _ heq => by cases heq
  | xfsEvent eventCode =>
    simp only [Input.xfsEvent.injEq, forall_eq', observe, onXfsEvent]
    cases hcheckpoint : eventToCheckpoint eventCode with
    | none => exact iff_of_true h fun hmem => recorded_of_unsupported hmem hcheckpoint
    | some checkpoint =>
      exact (supported_pushStep (supported_flushDigitBuffer h)).trans
        (supported_checkpoint hcheckpoint _)

theorem supported_saved {s : RecordingSession} (inputs : List Input) (h : s.steps = []) :
    Supported (s.saved inputs) ↔
      ∀ eventCode, Input.xfsEvent eventCode ∈ inputs → eventCode ∉ unsupportedEvents := by
  have hnone : Supported s.steps := by simp [Supported, h]
  induction inputs generalizing s with
  | nil => exact iff_of_true (supported_flushDigitBuffer hnone) fun _ hmem => by cases hmem
  | cons i inputs ih =>
    have hrest : Supported ((s.observe i).fresh.saved inputs) ↔
        ∀ eventCode, Input.xfsEvent eventCode ∈ inputs → eventCode ∉ unsupportedEvents :=
      ih rfl (by simp [Supported, fresh])
    rw [saved_cons, supported_append, supported_observe i hnone, hrest]
    simp only [List.mem_cons, or_imp, forall_and, eq_comm]

/-- A recording can be replayed exactly if none of these events came while it was active. -/
theorem recorded_replayable_iff (inputs : List Input) :
    Replayable (recorded inputs) ↔
      ∀ eventCode, Input.xfsEvent eventCode ∈ inputs → eventCode ∉ unsupportedEvents := by
  have hsupported := supported_saved inputs (s := startRecording) rfl
  rw [← recorded_eq] at hsupported
  refine ⟨fun h => hsupported.mp h.1, fun h => ?_⟩
  have hsteps := hsupported.mpr h
  exact ⟨hsteps, fun _ handle w step => run_supported handle hsteps w step⟩

/-- The customer takes the notes of a withdrawal while it is recorded. -/
theorem notes_taken_not_replayable :
    ¬Replayable (recorded
      [.userAction .confirm, .xfsEvent (utf16 "WFS_EXEE_CDM_NOTESPRESENTED"),
        .xfsEvent (utf16 "WFS_SRVE_CDM_ITEMSTAKEN")]) := by
  rw [recorded_eq]
  intro h
  have htaken := h.1 ⟨3, .checkpoint, some .cash, some (utf16 "Checkpoint(Taken)"), [], true⟩
  exact Bool.false_ne_true (htaken (by decide))

end AtmXfs.Macro
