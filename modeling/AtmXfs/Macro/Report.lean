import AtmXfs.Macro.Runner

namespace AtmXfs.Macro

open Js

/-- A step as the row of its macro stores it. -/
structure StoredStep where
  id : Text
  order : Number
  kind : Text
  device : Text
  operation : Text
  parameters : List MacroParameter
  enabled : Bool
  deriving DecidableEq

/-- `executeStep` has no branch for an assertion, nor for any kind but these. -/
def stepKind (kind : Text) : MacroStepKind :=
  if kind = utf16 "ACTION" then .action
  else if kind = utf16 "CHECKPOINT" then .checkpoint
  else if kind = utf16 "WAIT" then .wait
  else .assertion

def stepDevice (device : Text) : Option MacroDevice :=
  if device = utf16 "Card" then some .card
  else if device = utf16 "PinPad" then some .pinPad
  else if device = utf16 "Cash" then some .cash
  else if device = utf16 "Receipt" then some .receipt
  else if device = utf16 "Screen" then some .screen
  else if device = utf16 "System" then some .system
  else none

/-- What `executeStep` reads of a step; the order number is for `run` only. -/
def StoredStep.body (step : StoredStep) : MacroStep :=
  ⟨0, stepKind step.kind, stepDevice step.device, some step.operation, step.parameters,
    step.enabled⟩

def unsupportedStep (step : StoredStep) : Text :=
  utf16 "unsupported step: " ++ step.device ++ utf16 ":" ++ step.kind ++ utf16 ":" ++
    step.operation

/-- The message of a result or of an error; the times of the source's record are left out. -/
structure MacroStepResult where
  id : Text
  order : Number
  status : Text
  message : Option Text
  error : Option Text
  deriving DecidableEq

def stepResult (step : StoredStep) : Except Text Text → MacroStepResult
  | .ok message => ⟨step.id, step.order, utf16 "PASSED", some message, none⟩
  | .error errMsg => ⟨step.id, step.order, utf16 "FAILED", none, some errMsg⟩

section
variable {ω : Type} (handle : Handler → MacroStep → ω → ω × Except Text Text)

def executeStored (step : StoredStep) (w : ω) : ω × Except Text Text :=
  match dispatch step.body with
  | some handler => handle handler step.body w
  | none => (w, .error (unsupportedStep step))

/-- The loop of `run` with the results that it pushes. -/
def resultsOf : List StoredStep → ω → ω × List MacroStepResult
  | [], w => (w, [])
  | step :: rest, w =>
    match executeStored handle step w with
    | (w, .ok message) =>
      ((resultsOf rest w).1, stepResult step (.ok message) :: (resultsOf rest w).2)
    | (w, .error errMsg) => (w, [stepResult step (.error errMsg)])

def storedOrder (steps : List StoredStep) : List StoredStep :=
  (steps.filter (·.enabled)).mergeSort fun a b => a.order.le b.order

/-- The `stepResults` of a finished run. -/
def runResults (steps : List StoredStep) (w : ω) : List MacroStepResult :=
  (resultsOf handle (storedOrder steps) w).2

end

/-- One entry of the list of steps: its line, and the line of its error if it has one. -/
structure StepReport where
  line : Text
  error : Option Text
  deriving DecidableEq

def statusSymbol (status : Text) : Text :=
  if status = utf16 "PASS" then utf16 "[OK]"
  else if status = utf16 "FAIL" then utf16 "[X]"
  else utf16 "[-]"

def errorLine (error : Text) : Text := utf16 "     error: " ++ error

def stepReport (idx : Nat) (step : StoredStep) (r : Option MacroStepResult) : StepReport :=
  let status := (r.map (·.status)).getD (utf16 "PENDING")
  { line := statusSymbol status ++ (utf16 " " ++ decimal (idx + 1) ++ utf16 ". " ++ step.device ++
      utf16 ": " ++ step.operation ++ utf16 " (" ++ status ++ utf16 ")")
    -- an empty error counts as none
    error := ((r.bind (·.error)).filter (· ≠ [])).map errorLine }

/-- The list of steps that `generateMacroRunPdf` prints. -/
def generateMacroRunPdf (steps : List StoredStep) (stepResults : List MacroStepResult) :
    List StepReport :=
  steps.mapIdx fun idx step => stepReport idx step stepResults[idx]?

def StepReport.shows (report : StepReport) (symbol : String) : Prop :=
  utf16 symbol <+: report.line

/-- What is printed for a step is what the results say of it. -/
structure Tells (results : List MacroStepResult) (step : StoredStep) (report : StepReport) :
    Prop where
  ok : report.shows "[OK]" ↔ ∃ r ∈ results, r.id = step.id ∧ r.status = utf16 "PASSED"
  failed : ∀ error, report.shows "[X]" ∧ report.error = some (errorLine error) ↔
    ∃ r ∈ results, r.id = step.id ∧ r.status = utf16 "FAILED" ∧ r.error = some error
  pending : report.shows "[-]" ↔ ∀ r ∈ results, r.id ≠ step.id

theorem StepReport.shows_pending {report : StepReport} (h : report.shows "[-]") :
    ¬ report.shows "[OK]" ∧ ¬ report.shows "[X]" := by
  constructor
  · intro hok
    have hprefix := List.prefix_of_prefix_length_le h hok (by decide)
    revert hprefix
    decide
  · intro hfail
    have hprefix := List.prefix_of_prefix_length_le h hfail (by decide)
    revert hprefix
    decide

/-- The runner's own words are neither of the two that the report looks for. -/
theorem stepReport_pending (idx : Nat) (step : StoredStep) (r : Option MacroStepResult)
    (hr : ∀ result ∈ r, result.status = utf16 "PASSED" ∨ result.status = utf16 "FAILED") :
    (stepReport idx step r).shows "[-]" := by
  have hsymbol : statusSymbol ((r.map (·.status)).getD (utf16 "PENDING")) = utf16 "[-]" := by
    cases r with
    | none => decide
    | some result =>
      rcases hr result rfl with h | h <;> rw [Option.map_some, Option.getD_some, h] <;> decide
  simp only [StepReport.shows, stepReport]
  rw [hsymbol]
  exact List.prefix_append _ _

section
variable {ω : Type} (handle : Handler → MacroStep → ω → ω × Except Text Text)

theorem stepResult_status (step : StoredStep) (outcome : Except Text Text) :
    (stepResult step outcome).status = utf16 "PASSED" ∨
      (stepResult step outcome).status = utf16 "FAILED" := by
  cases outcome with
  | ok message => exact Or.inl rfl
  | error errMsg => exact Or.inr rfl

theorem stepResult_id (step : StoredStep) (outcome : Except Text Text) :
    (stepResult step outcome).id = step.id := by
  cases outcome <;> rfl

/-- The first step that `run` comes to has a result, whatever it does. -/
theorem resultsOf_cons (step : StoredStep) (rest : List StoredStep) (w : ω) :
    ∃ outcome more, (resultsOf handle (step :: rest) w).2 = stepResult step outcome :: more := by
  cases h : executeStored handle step w with
  | mk w' outcome =>
    cases outcome with
    | ok message => exact ⟨_, _, by rw [resultsOf, h]⟩
    | error errMsg => exact ⟨_, _, by rw [resultsOf, h]⟩

/-- Every result is one of a step that was run. -/
theorem mem_resultsOf {steps : List StoredStep} {w : ω} {result : MacroStepResult}
    (h : result ∈ (resultsOf handle steps w).2) :
    ∃ step ∈ steps, ∃ outcome, result = stepResult step outcome := by
  induction steps generalizing w with
  | nil => cases h
  | cons step rest ih =>
    rw [resultsOf] at h
    cases hstep : executeStored handle step w with
    | mk w' outcome =>
      rw [hstep] at h
      cases outcome with
      | ok message =>
        rcases List.mem_cons.mp h with rfl | hrest
        · exact ⟨step, List.mem_cons_self .., _, rfl⟩
        · obtain ⟨other, hother, houtcome⟩ := ih hrest
          exact ⟨other, List.mem_cons_of_mem _ hother, houtcome⟩
      | error errMsg =>
        rw [List.mem_singleton] at h
        exact ⟨step, List.mem_cons_self .., _, h⟩

/-- The results leave what the steps do as `runSteps` has it. -/
theorem resultsOf_world (steps : List StoredStep) (w : ω) :
    (resultsOf handle steps w).1 =
      (runSteps (fun handler step w => ((handle handler step w).1,
        match (handle handler step w).2 with
        | .ok _ => none
        | .error errMsg => some errMsg)) (steps.map (·.body)) w).1 := by
  induction steps generalizing w with
  | nil => rfl
  | cons step rest ih =>
    rw [List.map_cons, resultsOf, runSteps, executeStored, executeStep]
    cases dispatch step.body with
    | none => rfl
    | some handler =>
      cases h : handle handler step.body w with
      | mk w' outcome =>
        cases outcome with
        | ok message => simpa only [h, Option.map_none] using ih w'
        | error errMsg => simp only [h, Option.map_some]

variable {handle}

theorem mem_storedOrder {steps : List StoredStep} {step : StoredStep} :
    step ∈ storedOrder steps ↔ step ∈ steps ∧ step.enabled = true := by
  rw [storedOrder, List.mem_mergeSort, List.mem_filter]

theorem mem_runResults {steps : List StoredStep} {w : ω} {result : MacroStepResult}
    (h : result ∈ runResults handle steps w) :
    ∃ step ∈ steps, step.enabled = true ∧ ∃ outcome, result = stepResult step outcome := by
  obtain ⟨step, hstep, houtcome⟩ := mem_resultsOf handle h
  rw [mem_storedOrder] at hstep
  exact ⟨step, hstep.1, hstep.2, houtcome⟩

/-- No line of a run's report shows anything but `[-]`. -/
theorem generateMacroRunPdf_pending {steps : List StoredStep} {w : ω}
    {step : StoredStep} {report : StepReport}
    (h : (step, report) ∈ steps.zip (generateMacroRunPdf steps (runResults handle steps w))) :
    report.shows "[-]" := by
  obtain ⟨idx, hstep, hreport⟩ : ∃ idx, ∃ other, report =
      stepReport idx other (runResults handle steps w)[idx]? := by
    obtain ⟨idx, hidx, heq⟩ := List.mem_iff_getElem.mp (List.of_mem_zip h).2
    simp only [generateMacroRunPdf, List.getElem_mapIdx] at heq
    exact ⟨idx, _, heq.symm⟩
  rw [hreport]
  refine stepReport_pending idx hstep _ fun result hresult => ?_
  obtain ⟨_, _, _, outcome, rfl⟩ := mem_runResults (List.mem_of_getElem? hresult)
  exact stepResult_status _ outcome

/-- A report is wrong about a step that was executed. -/
theorem not_tells_of_result {steps : List StoredStep} {w : ω} {step : StoredStep}
    {report : StepReport}
    (h : (step, report) ∈ steps.zip (generateMacroRunPdf steps (runResults handle steps w)))
    (hresult : ∃ result ∈ runResults handle steps w, result.id = step.id) :
    ¬ Tells (runResults handle steps w) step report := by
  intro htells
  obtain ⟨result, hmem, hid⟩ := hresult
  exact htells.pending.mp (generateMacroRunPdf_pending h) result hmem hid

/-- A report is right about a run without results. -/
theorem tells_of_no_result {steps : List StoredStep} {w : ω}
    (hnone : runResults handle steps w = []) {step : StoredStep} {report : StepReport}
    (h : (step, report) ∈ steps.zip (generateMacroRunPdf steps (runResults handle steps w))) :
    Tells (runResults handle steps w) step report := by
  have hpending := generateMacroRunPdf_pending h
  obtain ⟨hok, hfail⟩ := StepReport.shows_pending hpending
  rw [hnone]
  exact ⟨by simp [hok], by simp [hfail], by simp [hpending]⟩

end

/-- The report is right about the runs in which no step was executed, and about no other. -/
theorem generateMacroRunPdf_tells {ω : Type}
    (handle : Handler → MacroStep → ω → ω × Except Text Text) (steps : List StoredStep) (w : ω) :
    (∀ entry ∈ steps.zip (generateMacroRunPdf steps (runResults handle steps w)),
      Tells (runResults handle steps w) entry.1 entry.2) ↔
      ∀ step ∈ steps, step.enabled = false := by
  constructor
  · intro htells
    by_contra hsome
    push Not at hsome
    obtain ⟨step, hstep, henabled⟩ := hsome
    have hrun : step ∈ storedOrder steps :=
      mem_storedOrder.mpr ⟨hstep, Bool.eq_true_of_not_eq_false henabled⟩
    cases horder : storedOrder steps with
    | nil => simp [horder] at hrun
    | cons first rest =>
      have hfirst : first ∈ steps := by
        refine (mem_storedOrder.mp ?_).1
        rw [horder]
        exact List.mem_cons_self ..
      obtain ⟨outcome, more, hresults⟩ := resultsOf_cons handle first rest w
      have hresult : ∃ result ∈ runResults handle steps w, result.id = first.id := by
        rw [runResults, horder, hresults]
        exact ⟨_, List.mem_cons_self .., stepResult_id first outcome⟩
      obtain ⟨idx, hidx, rfl⟩ := List.mem_iff_getElem.mp hfirst
      have hlength : idx < (steps.zip
          (generateMacroRunPdf steps (runResults handle steps w))).length := by
        simp only [List.length_zip, generateMacroRunPdf, List.length_mapIdx]
        omega
      have hmem := List.getElem_mem hlength
      rw [List.getElem_zip] at hmem
      exact not_tells_of_result hmem hresult (htells _ hmem)
  · intro hdisabled entry hentry
    refine tells_of_no_result ?_ hentry
    rw [List.eq_nil_iff_forall_not_mem]
    intro result hresult
    obtain ⟨step, hstep, henabled, _⟩ := mem_runResults hresult
    rw [hdisabled step hstep] at henabled
    cases henabled

/-- The one step of a macro that waits. -/
def waitStep : StoredStep :=
  ⟨utf16 "s1", .ofInt 1, utf16 "WAIT", utf16 "System", utf16 "Wait", [], true⟩

/-- Its run passes, and its report shows the step as not executed. -/
theorem passed_step_shown_pending :
    runResults (fun _ _ (w : Unit) => (w, .ok (utf16 "waited 500ms"))) [waitStep] () =
        [⟨utf16 "s1", .ofInt 1, utf16 "PASSED", some (utf16 "waited 500ms"), none⟩] ∧
      generateMacroRunPdf [waitStep]
        [⟨utf16 "s1", .ofInt 1, utf16 "PASSED", some (utf16 "waited 500ms"), none⟩] =
        [⟨utf16 "[-] 1. System: Wait (PASSED)", none⟩] ∧
      ¬ ∀ entry ∈ [waitStep].zip (generateMacroRunPdf [waitStep]
          (runResults (fun _ _ (w : Unit) => (w, .ok (utf16 "waited 500ms"))) [waitStep] ())),
        Tells (runResults (fun _ _ (w : Unit) => (w, .ok (utf16 "waited 500ms"))) [waitStep] ())
          entry.1 entry.2 := by
  have hresults : runResults (fun _ _ (w : Unit) => (w, .ok (utf16 "waited 500ms")))
      [waitStep] () =
      [⟨utf16 "s1", .ofInt 1, utf16 "PASSED", some (utf16 "waited 500ms"), none⟩] := by
    rw [runResults, storedOrder, List.filter_cons_of_pos (by rfl), List.filter_nil,
      List.mergeSort_singleton]
    decide
  refine ⟨hresults, by decide +kernel, fun htells => ?_⟩
  have hresult : ∃ result ∈ runResults (fun _ _ (w : Unit) => (w, .ok (utf16 "waited 500ms")))
      [waitStep] (), result.id = waitStep.id := by
    rw [hresults]
    exact ⟨_, List.mem_cons_self .., rfl⟩
  exact not_tells_of_result (List.mem_cons_self ..) hresult (htells _ (List.mem_cons_self ..))

end AtmXfs.Macro
