import AtmXfs.Macro.Respect

namespace AtmXfs.Macro

open Js Host Pin TwoRuns TwoRuns.Comp

/-- The two runs of a step pass or fail alike, whatever they say of it. -/
def SameVerdict (_ _ : Text) : Prop := True

section
variable {P : Platform} {moments : Nat → Moment}

theorem twin_pass (message message' : Text) :
    Twin Alike SameVerdict (pure message : Run Text) (pure message') := .pure trivial

theorem twin_resolve (raw : Text) : Respects Alike (resolve raw) := by
  apply (Twin.reads fun _ _ h => congrArg (fun ctx => resolveKey ctx.vars raw) h.ctx).andThen
  intro resolved
  cases resolved with
  | none => exact .throw _ _
  | some resolved => exact .pure rfl

theorem twin_select (step : MacroStep) :
    Twin Alike SameVerdict (select P moments step) (select P moments step) := by
  apply (Twin.ensure rfl _ _).andThen
  intro _
  apply twin_await.andThen
  intro _
  apply (Twin.reads fun _ _ h => by rw [h.cards, h.names]).andThen
  intro found
  cases found with
  | none => exact .throw _ _
  | some cardholderName =>
    apply (Twin.writes rfl fun _ _ h => { h with ctx := by rw [h.ctx] }).andThen
    exact fun _ => twin_pass _ _

theorem twin_insert : Twin Alike SameVerdict (insert P moments) (insert P moments) := by
  apply (Twin.reads fun _ _ h => congrArg MacroRunContext.selectedPan h.ctx).andThen
  intro selected
  cases selected with
  | none => exact .throw _ _
  | some pan =>
    apply twin_await.andThen
    intro _
    apply (Twin.reads fun _ _ h => by rw [h.cards]).andThen
    intro found
    apply (Twin.ensure rfl _ _).andThen
    intro _
    exact (twin_onCardInserted pan).andThen fun _ => twin_pass _ _

theorem twin_cardCheck (held : Bool) (error message : String) :
    Twin Alike SameVerdict (cardCheck held error message) (cardCheck held error message) := by
  apply (Twin.reads fun _ _ h => h.card).andThen
  intro card
  exact (Twin.ensure rfl _ _).andThen fun _ => twin_pass _ _

theorem twin_beginPin : Twin Alike SameVerdict (beginPin P moments) (beginPin P moments) := by
  apply twin_beginPinEntry.andThen
  intro _
  exact (twin_awaitEntry 9).andThen fun _ => twin_pass _ _

theorem twin_pressKeys (keys : List String) :
    Respects Alike (writes fun s => keys.foldl AtmStack.pressKey s : Run Unit) :=
  .writes rfl fun _ _ h => h.pressKeys keys

theorem twin_keyPressed (step : MacroStep) :
    Twin Alike SameVerdict (keyPressed P step) (keyPressed P step) := by
  apply (twin_resolve _).andThen
  intro resolved
  exact (twin_pressKeys _).andThen fun _ => twin_pass _ _

theorem twin_crash {α : Type} (message : Text) : Respects Alike (crash message : Run α) := by
  apply (Twin.writes rfl fun _ _ h => { h with down := rfl }).andThen
  exact fun _ => .throw _ _

theorem twin_waitArmed : Respects Alike (waitArmed P moments) := by
  have hactive : Respects Alike (reads (·.isEntryActive) : Run Bool) :=
    .reads fun _ _ h => isSome_active_of_entryOf h.entry
  have hcall : Respects Alike (reads (·.entryCall) : Run (Option PinPhase)) :=
    .reads fun _ _ h => h.entryCall
  apply hactive.andThen
  intro active
  split_ifs
  · exact .pure rfl
  · apply twin_await.andThen
    intro _
    apply hcall.andThen
    intro call
    split
    · exact twin_crash _
    · exact hactive

theorem twin_enterPin (step : MacroStep) :
    Twin Alike SameVerdict (enterPin P moments step) (enterPin P moments step) := by
  apply (twin_resolve _).andThen
  intro resolved
  apply twin_beginPinEntry.andThen
  intro _
  apply twin_waitArmed.andThen
  intro armed
  split_ifs
  · apply (twin_pressKeys _).andThen
    intro _
    apply (twin_awaitEntry 9).andThen
    intro verdict
    exact (Twin.ensure rfl _ _).andThen fun _ => twin_pass _ _
  · exact twin_abandonEntry.andThen fun _ => .throw _ _

theorem twin_notesPresented :
    Twin Alike SameVerdict (notesPresented P moments) (notesPresented P moments) := by
  have hinfo : Twin Alike (Ends fun _ _ => True)
      (swaps (AtmStack.executeCommand P .cdm fun s => (.ok (Cdm.getCashUnitInfo s.cdm), s)) :
        Run (Except String Cdm.CdmResult))
      (swaps (AtmStack.executeCommand P .cdm fun s => (.ok (Cdm.getCashUnitInfo s.cdm), s))) :=
    .swaps fun _ _ h => h.executeCommand P (by decide) ⟨trivial, h⟩
  apply twin_await.andThen
  intro _
  apply hinfo.outcome
  · exact fun _ _ => .throw _ _
  · exact fun _ _ _ => twin_pass _ _

theorem isEmpty_history {s t : AtmStack} (h : Alike s t) :
    s.ptr.history.isEmpty = t.ptr.history.isEmpty := by
  have hprinter := h.printer
  unfold AtmStack.printer printerUse at hprinter
  rw [Bool.eq_iff_iff, List.isEmpty_iff, List.isEmpty_iff]
  split_ifs at hprinter <;> simp_all

theorem twin_printed : Twin Alike SameVerdict printed printed := by
  apply (Twin.reads fun _ _ h => congrArg (!·) (isEmpty_history h)).andThen
  intro some
  apply (Twin.ensure rfl _ _).andThen
  intro _
  exact .reads fun _ _ _ => trivial

theorem twin_deviceFor (name : Text) : Respects Alike (deviceFor name) := by
  unfold deviceFor
  split_ifs
  · exact .pure rfl
  · exact .pure rfl
  · exact .pure rfl
  · exact .pure rfl
  · exact .throw _ _

theorem twin_injectXfsError (step : MacroStep) :
    Twin Alike SameVerdict (injectXfsError P step) (injectXfsError P step) := by
  apply (twin_deviceFor _).andThen
  intro device
  apply (Twin.writes rfl fun _ _ h => h.inject device rfl).andThen
  exact fun _ => twin_pass _ _

theorem twin_clearXfsError (step : MacroStep) :
    Twin Alike SameVerdict (clearXfsError P step) (clearXfsError P step) := by
  apply (twin_deviceFor _).andThen
  intro device
  apply (Twin.writes rfl fun _ _ h => h.inject device rfl).andThen
  exact fun _ => twin_pass _ _

theorem twin_sessionState (step : MacroStep) :
    Twin Alike SameVerdict (sessionState P step) (sessionState P step) := by
  apply (twin_session? fun _ => rfl).andThen
  intro state
  exact (Twin.ensure rfl _ _).andThen fun _ => twin_pass _ _

theorem lastTransaction_plain (rows : List Transaction) :
    (lastTransaction rows).map plainRow = lastTransaction (rows.map plainRow) := by
  have hfold : ∀ last : Option Transaction,
      (rows.foldl laterRow last).map plainRow = (rows.map plainRow).foldl laterRow
        (last.map plainRow) := by
    induction rows with
    | nil => exact fun _ => rfl
    | cons row rows ih =>
      intro last
      have hlater : (laterRow last row).map plainRow =
          laterRow (last.map plainRow) (plainRow row) := by
        cases last with
        | none => rfl
        | some other =>
          unfold laterRow
          simp only [Option.map_some]
          split_ifs <;> first | rfl | contradiction
      rw [List.foldl_cons, ih, List.map_cons, List.foldl_cons, hlater]
  exact hfold none

theorem twin_checkLastTransaction (step : MacroStep) :
    Twin Alike SameVerdict (checkLastTransaction P moments step)
      (checkLastTransaction P moments step) := by
  have hlast : Twin Alike (fun a b => a.map plainRow = b.map plainRow)
      (reads (fun s => lastTransaction s.bank.transactions) : Run (Option Transaction))
      (reads fun s => lastTransaction s.bank.transactions) :=
    .reads fun s t h => by rw [lastTransaction_plain, lastTransaction_plain, h.transactions]
  apply twin_await.andThen
  intro _
  apply hlast.bind
  intro a b hab
  rcases map_cases hab with ⟨rfl, rfl⟩ | ⟨tx, tx', rfl, rfl, hplain⟩
  · exact .throw _ _
  · have hrows : (plainRow tx).status = (plainRow tx').status := by rw [hplain]
    have hstatus : tx.status = tx'.status := hrows
    apply (Twin.ensure (by rw [hstatus]) _ _).andThen
    exact fun _ => twin_pass _ _

/-- No branch of a step tells the two states apart. -/
theorem twin_branch (step : MacroStep) (handler : Handler) :
    Twin Alike SameVerdict (branch P moments step handler) (branch P moments step handler) := by
  cases handler with
  | select => exact twin_select step
  | insert => exact twin_insert
  | inserted => exact twin_cardCheck _ _ _
  | readTracks => exact twin_cardCheck _ _ _
  | ejected => exact twin_cardCheck _ _ _
  | beginPin => exact twin_beginPin
  | keyPressed => exact twin_keyPressed step
  | enterPin => exact twin_enterPin step
  | notesPresented => exact twin_notesPresented
  | printed => exact twin_printed
  | selectTransaction => exact (twin_selectTransaction _).andThen fun _ => twin_pass _ _
  | submitAmount => exact (twin_submitAmount _).andThen fun _ => twin_pass _ _
  | confirm => exact twin_confirmTransaction.andThen fun _ => twin_pass _ _
  | cancel => exact twin_cancelTransaction.andThen fun _ => twin_pass _ _
  | wait => exact twin_await.andThen fun _ => twin_pass _ _
  | injectError => exact twin_injectXfsError step
  | clearError => exact twin_clearXfsError step
  | sessionState => exact twin_sessionState step
  | lastTransaction => exact twin_checkLastTransaction step

/-- A step that is executed passes or fails alike. -/
theorem executeStored_alike {s t : AtmStack} (h : Alike s t) (step : StoredStep) :
    Ends SameVerdict (executeStored (handle P moments) step s).2
        (executeStored (handle P moments) step t).2 ∧
      Alike (executeStored (handle P moments) step s).1
        (executeStored (handle P moments) step t).1 := by
  unfold executeStored
  cases dispatch step.body with
  | none => exact ⟨trivial, h⟩
  | some handler =>
    exact (twin_await.andThen fun _ => twin_branch step.body handler) s t h

/-- What is asked of a result: its step and whether that step passed. -/
def verdict (r : MacroStepResult) : Text × Number × Text := (r.id, r.order, r.status)

variable (P moments) in
theorem resultsOf_alike {s t : AtmStack} (h : Alike s t) (steps : List StoredStep) :
    (resultsOf (handle P moments) steps s).2.map verdict =
        (resultsOf (handle P moments) steps t).2.map verdict ∧
      Alike (resultsOf (handle P moments) steps s).1 (resultsOf (handle P moments) steps t).1 := by
  induction steps generalizing s t with
  | nil => exact ⟨rfl, h⟩
  | cons step rest ih =>
    obtain ⟨hends, hafter⟩ := executeStored_alike h step
    rcases hs : executeStored (handle P moments) step s with ⟨s', r⟩
    rcases ht : executeStored (handle P moments) step t with ⟨t', q⟩
    rw [hs, ht] at hends hafter
    simp only [resultsOf, hs, ht]
    cases r with
    | error e => cases q with
      | error e' => exact ⟨rfl, hafter⟩
      | ok message => exact hends.elim
    | ok message => cases q with
      | error e' => exact hends.elim
      | ok message' =>
        obtain ⟨hresults, hrest⟩ := ih hafter
        refine ⟨?_, hrest⟩
        simp only [List.map_cons, hresults]
        rfl

/-- The status of a run and, for each step that it came to, whether it passed. -/
def MacroRun.verdicts (run : MacroRun) : Text × List (Text × Number × Text) :=
  (run.status, run.stepResults.map verdict)

/-- A macro ends alike from two states that no step of it tells apart. -/
theorem runMacro_alike {s t : AtmStack} (saved : SavedMacro)
    (h : Alike (s.start saved) (t.start saved)) :
    (runMacro P moments saved s).2.map MacroRun.verdicts =
      (runMacro P moments saved t).2.map MacroRun.verdicts := by
  obtain ⟨hresults, hafter⟩ :=
    resultsOf_alike P moments h (storedOrder saved.steps)
  have hpassed : ∀ results : List MacroStepResult,
      results.all (·.status = utf16 "PASSED") =
        (results.map verdict).all (·.2.2 = utf16 "PASSED") := by
    intro results
    rw [List.all_map]
    rfl
  simp only [runMacro, hafter.down, hpassed, hresults]
  split_ifs
  · rfl
  · simp only [Option.map_some, MacroRun.verdicts, hresults]
  · simp only [Option.map_some, MacroRun.verdicts, hresults]

end

end AtmXfs.Macro
