import AtmXfs.Lib.Runs
import AtmXfs.Macro.Recorder
import Mathlib.Logic.Function.Basic

namespace AtmXfs.Macro

open Js Runs

/-- A recording: the object that a `startRecording` made active (`ref` tells these apart), and
the inputs that have arrived since. -/
structure Recording where
  ref : Nat
  macroId : Text
  session : RecordingSession
  inputs : List Input
  deriving DecidableEq

/-- The await point at which a call of the recorder stands: a start at its `findUnique`, a stop
at its update, before or after the statement is executed. `ref` is the recording whose steps the
stop has copied. -/
inductive RecorderCall where
  | finding (macroId : Text)
  | found (macroId : Text) (there : Bool)
  | saving (ref : Nat) (macroId : Text) (steps : List MacroStep)
  | saved (ref : Nat) (macroId : Text) (steps : List MacroStep)
  deriving DecidableEq

def RecorderCall.copy : RecorderCall → Option (Nat × Text × List MacroStep)
  | saving ref macroId steps => some (ref, macroId, steps)
  | saved ref macroId steps => some (ref, macroId, steps)
  | _ => none

/-- A recording that a stop has ended, with what that stop has stored and for which macro. -/
structure Ended where
  recording : Recording
  macroId : Text
  steps : List MacroStep
  deriving DecidableEq

/-- `macros` is the table of macros with their steps; `replaced` and `ended` are the recordings
that are no longer active. -/
structure RecorderService where
  active : Option Recording
  macros : Text → Option (List MacroStep)
  calls : Nat → Option RecorderCall
  fresh : Nat
  replaced : List Recording
  ended : List Ended

inductive RecorderMove where
  | start (c : Nat) (macroId : Text)
  | stop (c : Nat)
  | input (i : Input)
  | executes (c : Nat)
  | resumes (c : Nat)
  deriving DecidableEq

/-- A user action or an event that is mapped to a checkpoint. -/
def Input.heard : Input → Bool
  | .userAction _ => true
  | .xfsEvent eventCode => (eventToCheckpoint eventCode).isSome

namespace Recording

def observe (r : Recording) (i : Input) : Recording :=
  { r with
    session := r.session.observe i
    inputs := if i.heard then r.inputs ++ [i] else r.inputs }

def flush (r : Recording) : Recording := { r with session := r.session.flushDigitBuffer }

end Recording

namespace RecorderService

def put (s : RecorderService) (c : Nat) (call : Option RecorderCall) : RecorderService :=
  { s with calls := Function.update s.calls c call }

/-- `status().macroId`. -/
def status (s : RecorderService) : Option Text := s.active.map (·.macroId)

/-- The code of `stopRecording` before its await. -/
def beginStop (s : RecorderService) (c : Nat) : RecorderService :=
  match s.active with
  | none => s
  | some r =>
    { s with active := some r.flush }.put c
      (some (.saving r.ref r.macroId r.session.stopRecording))

def executes (s : RecorderService) (c : Nat) : RecorderCall → Option RecorderService
  | .finding macroId => some (s.put c (some (.found macroId (s.macros macroId).isSome)))
  | .saving ref macroId steps =>
    some ({ s with macros := Function.update s.macros macroId (some steps) }.put c
      (some (.saved ref macroId steps)))
  | _ => none

def resumes (s : RecorderService) (c : Nat) : RecorderCall → Option RecorderService
  | .found _ false => some (s.put c none)
  | .found macroId true =>
    some ({ s with
      active := some ⟨s.fresh, macroId, startRecording, []⟩
      fresh := s.fresh + 1
      replaced := s.active.toList ++ s.replaced }.put c none)
  | .saved _ macroId steps =>
    some ({ s with
      active := none
      ended := (s.active.map fun r => Ended.mk r macroId steps).toList ++ s.ended }.put c none)
  | _ => none

def step (s : RecorderService) : RecorderMove → Option RecorderService
  | .start c macroId =>
    if s.calls c = none then
      -- a start that finds a recording active throws
      some (s.put c (if s.active.isSome then none else some (.finding macroId)))
    else none
  | .stop c => if s.calls c = none then some (s.beginStop c) else none
  | .input i => some { s with active := s.active.map (·.observe i) }
  | .executes c => (s.calls c).bind (s.executes c)
  | .resumes c => (s.calls c).bind (s.resumes c)

/-- The recorder before its first call. -/
def boot (macros : Text → Option (List MacroStep)) : RecorderService :=
  ⟨none, macros, fun _ => none, 0, [], []⟩

/-- No recording was replaced, and whatever ended one stored, for its macro, the steps that its
inputs make. -/
def Faithful (s : RecorderService) : Prop :=
  s.replaced = [] ∧ ∀ e ∈ s.ended,
    e.macroId = e.recording.macroId ∧ e.steps = recorded e.recording.inputs

/-- The copy that a call of `stopRecording` has made, if it is one. -/
def copyAt (s : RecorderService) (c : Nat) : Option (Nat × Text × List MacroStep) :=
  (s.calls c).bind RecorderCall.copy

/-- A stop is under way that has copied the steps of the recording. -/
def Stopping (s : RecorderService) (ref : Nat) : Prop :=
  ∃ c macroId steps, s.copyAt c = some (ref, macroId, steps)

/-- When a call may go on: a start that would make its recording active only where none is, a
stop that would clear the active recording only where it is the one it has copied. -/
def MayResume (s : RecorderService) : RecorderCall → Prop
  | .found _ true => s.active = none
  | .saved ref _ _ => ∀ r, s.active = some r → r.ref = ref
  | _ => True

/-- The condition on a step. -/
def Undisturbed (s : RecorderService) : RecorderMove → Prop
  | .input i => i.heard = true → ∀ r, s.active = some r → ¬ s.Stopping r.ref
  | .resumes c => ∀ call, s.calls c = some call → s.MayResume call
  | _ => True

/-- What holds of the active recording as long as nothing disturbs it: it has seen its inputs,
up to a flush by a stop that is under way, and such a stop has copied what they make. -/
structure Sound (s : RecorderService) (r : Recording) : Prop where
  fresh : r.ref < s.fresh
  flushed : r.session.flushDigitBuffer =
    (r.inputs.foldl RecordingSession.observe startRecording).flushDigitBuffer
  unflushed : ¬ s.Stopping r.ref →
    r.session = r.inputs.foldl RecordingSession.observe startRecording
  copied : ∀ c macroId steps, s.copyAt c = some (r.ref, macroId, steps) →
    macroId = r.macroId ∧ steps = recorded r.inputs

structure Inv (s : RecorderService) : Prop where
  faithful : s.Faithful
  older : ∀ ref, s.Stopping ref → ref < s.fresh
  sound : ∀ r, s.active = some r → s.Sound r

theorem put_calls (s : RecorderService) (c : Nat) (call : Option RecorderCall) :
    (s.put c call).calls = Function.update s.calls c call := rfl

theorem copyAt_put (s : RecorderService) (c : Nat) (call : Option RecorderCall) :
    (s.put c call).copyAt = Function.update s.copyAt c (call.bind RecorderCall.copy) := by
  funext i
  by_cases h : i = c
  · rw [h, copyAt, put_calls, Function.update_self, Function.update_self]
  · rw [copyAt, put_calls, Function.update_of_ne h, Function.update_of_ne h, copyAt]

/-- A call that moves on without making a copy or giving one up. -/
theorem copyAt_keep {s : RecorderService} {c : Nat} {call : Option RecorderCall}
    (h : call.bind RecorderCall.copy = s.copyAt c) : (s.put c call).copyAt = s.copyAt := by
  rw [copyAt_put, h, Function.update_eq_self]

theorem Inv.congr {s s' : RecorderService} (hi : s.Inv) (hactive : s'.active = s.active)
    (hcopy : s'.copyAt = s.copyAt) (hfresh : s'.fresh = s.fresh)
    (hreplaced : s'.replaced = s.replaced) (hended : s'.ended = s.ended) : s'.Inv := by
  have hstopping : ∀ ref, s'.Stopping ref ↔ s.Stopping ref := by
    intro ref
    rw [Stopping, Stopping, hcopy]
  refine ⟨?_, ?_, ?_⟩
  · rw [Faithful, hreplaced, hended]
    exact hi.faithful
  · intro ref h
    rw [hfresh]
    exact hi.older ref ((hstopping ref).mp h)
  · intro r hr
    rw [hactive] at hr
    obtain ⟨href, hflushed, hunflushed, hcopied⟩ := hi.sound r hr
    refine ⟨?_, hflushed, ?_, ?_⟩
    · rw [hfresh]
      exact href
    · rw [hstopping]
      exact hunflushed
    · rw [hcopy]
      exact hcopied

theorem observe_unheard {r : Recording} {i : Input} (h : i.heard = false) : r.observe i = r := by
  cases i with
  | userAction action => cases h
  | xfsEvent eventCode =>
    have hnone : eventToCheckpoint eventCode = none := by
      cases hm : eventToCheckpoint eventCode with
      | none => rfl
      | some checkpoint =>
        rw [Input.heard, hm] at h
        cases h
    have hsession : r.session.observe (.xfsEvent eventCode) = r.session := by
      rw [RecordingSession.observe, RecordingSession.onXfsEvent, hnone]
    rw [Recording.observe, h, hsession]
    rfl

theorem flush_twice (session : RecordingSession) :
    session.flushDigitBuffer.flushDigitBuffer = session.flushDigitBuffer :=
  RecordingSession.flushDigitBuffer_nil (RecordingSession.flushDigitBuffer_digitBuffer session)

/-- What a stop copies from a sound recording. -/
theorem Sound.copy {s : RecorderService} {r : Recording} (h : s.Sound r) :
    r.session.stopRecording = recorded r.inputs := by
  rw [recorded, RecordingSession.stopRecording, RecordingSession.stopRecording, h.flushed]

theorem inv_start {s t : RecorderService} {c : Nat} {macroId : Text} (hi : s.Inv)
    (h : s.step (.start c macroId) = some t) : t.Inv := by
  simp only [step] at h
  split_ifs at h with hc hactive
  all_goals
    cases h
    refine hi.congr rfl (copyAt_keep ?_) rfl rfl rfl
    simp [copyAt, hc, RecorderCall.copy]

theorem inv_stop {s t : RecorderService} {c : Nat} (hi : s.Inv)
    (h : s.step (.stop c) = some t) : t.Inv := by
  simp only [step] at h
  split_ifs at h with hc
  cases h
  rw [beginStop]
  cases hactive : s.active with
  | none => exact hi
  | some r =>
    have hr := hi.sound r hactive
    have hcopyAt := copyAt_put { s with active := some r.flush } c
      (some (.saving r.ref r.macroId r.session.stopRecording))
    refine ⟨hi.faithful, ?_, ?_⟩
    · intro ref href
      obtain ⟨i, macroId, steps, hcopy⟩ := href
      rw [hcopyAt] at hcopy
      by_cases hic : i = c
      · rw [hic, Function.update_self] at hcopy
        cases hcopy
        exact hr.fresh
      · rw [Function.update_of_ne hic] at hcopy
        exact hi.older ref ⟨i, macroId, steps, hcopy⟩
    · intro r' hr'
      cases hr'
      refine ⟨hr.fresh, ?_, ?_, ?_⟩
      · rw [Recording.flush, flush_twice]
        exact hr.flushed
      · intro hnot
        apply absurd _ hnot
        refine ⟨c, r.macroId, r.session.stopRecording, ?_⟩
        rw [hcopyAt, Function.update_self]
        rfl
      · intro i macroId steps hcopy
        rw [hcopyAt] at hcopy
        by_cases hic : i = c
        · rw [hic, Function.update_self] at hcopy
          cases hcopy
          exact ⟨rfl, hr.copy⟩
        · rw [Function.update_of_ne hic] at hcopy
          exact hr.copied i macroId steps hcopy

theorem inv_input {s t : RecorderService} {i : Input} (hi : s.Inv)
    (hok : s.Undisturbed (.input i)) (h : s.step (.input i) = some t) : t.Inv := by
  cases h
  refine ⟨hi.faithful, hi.older, ?_⟩
  intro r' hr'
  obtain ⟨r, hr, heq⟩ := Option.map_eq_some_iff.mp hr'
  have hs := hi.sound r hr
  cases hheard : i.heard with
  | false =>
    rw [observe_unheard hheard] at heq
    rw [← heq]
    exact ⟨hs.fresh, hs.flushed, hs.unflushed, hs.copied⟩
  | true =>
    have hnot := hok hheard r hr
    have hsession : (r.observe i).session =
        (r.observe i).inputs.foldl RecordingSession.observe startRecording := by
      rw [Recording.observe, if_pos hheard, List.foldl_append, hs.unflushed hnot]
      rfl
    rw [← heq]
    refine ⟨hs.fresh, ?_, fun _ => hsession, ?_⟩
    · rw [hsession]
    · intro c macroId steps hcopy
      exact absurd ⟨c, macroId, steps, hcopy⟩ hnot

theorem inv_executes {s t : RecorderService} {c : Nat} (hi : s.Inv)
    (h : s.step (.executes c) = some t) : t.Inv := by
  obtain ⟨call, hc, hr⟩ := Option.bind_eq_some_iff.mp h
  cases call with
  | finding macroId =>
    cases hr
    refine hi.congr rfl (copyAt_keep ?_) rfl rfl rfl
    rw [copyAt, hc]
    rfl
  | saving ref macroId steps =>
    cases hr
    refine hi.congr rfl ?_ rfl rfl rfl
    apply copyAt_keep (s := { s with macros := Function.update s.macros macroId (some steps) })
    rw [copyAt, hc]
    rfl
  | _ => cases hr

theorem inv_resumes {s t : RecorderService} {c : Nat} (hi : s.Inv)
    (hok : s.Undisturbed (.resumes c)) (h : s.step (.resumes c) = some t) : t.Inv := by
  obtain ⟨call, hc, hr⟩ := Option.bind_eq_some_iff.mp h
  have hmay := hok call hc
  cases call with
  | found macroId there =>
    have hcopyAt : (s.put c none).copyAt = s.copyAt := by
      apply copyAt_keep
      rw [copyAt, hc]
      rfl
    cases there with
    | false =>
      cases hr
      exact hi.congr rfl hcopyAt rfl rfl rfl
    | true =>
      cases hr
      have hnone : s.active = none := hmay
      refine ⟨?_, ?_, ?_⟩
      · rw [Faithful]
        simp only [put, hnone, Option.toList_none, List.nil_append]
        exact hi.faithful
      · intro ref href
        obtain ⟨i, m, steps, hcopy⟩ := href
        have hbefore : s.Stopping ref := ⟨i, m, steps, (congrFun hcopyAt i).symm.trans hcopy⟩
        exact Nat.lt_succ_of_lt (hi.older ref hbefore)
      · intro r hactive
        cases hactive
        refine ⟨Nat.lt_succ_self _, rfl, fun _ => rfl, ?_⟩
        intro i m steps hcopy
        have hbefore : s.Stopping s.fresh := ⟨i, m, steps, (congrFun hcopyAt i).symm.trans hcopy⟩
        exact absurd (hi.older s.fresh hbefore) (Nat.lt_irrefl _)
  | saved ref macroId steps =>
    cases hr
    refine ⟨⟨hi.faithful.1, ?_⟩, ?_, ?_⟩
    · intro e he
      cases List.mem_append.mp he with
      | inr he => exact hi.faithful.2 e he
      | inl he =>
        obtain ⟨r, hactive, heq⟩ := Option.map_eq_some_iff.mp (Option.mem_toList.mp he)
        have href : r.ref = ref := hmay r hactive
        have hcopy : s.copyAt c = some (r.ref, macroId, steps) := by
          rw [copyAt, hc, href]
          rfl
        rw [← heq]
        exact (hi.sound r hactive).copied c macroId steps hcopy
    · intro ref' href'
      obtain ⟨i, m, st, hcopy⟩ := href'
      have hcopyAt := copyAt_put s c none
      have hat : (s.put c none).copyAt i = some (ref', m, st) := hcopy
      rw [hcopyAt] at hat
      by_cases hic : i = c
      · rw [hic, Function.update_self] at hat
        cases hat
      · rw [Function.update_of_ne hic] at hat
        exact hi.older ref' ⟨i, m, st, hat⟩
    · intro r hactive
      cases hactive
  | _ => cases hr

theorem inv_step (s : RecorderService) (m : RecorderMove) (t : RecorderService) (hi : s.Inv)
    (hok : s.Undisturbed m) (h : s.step m = some t) : t.Inv := by
  cases m with
  | start c macroId => exact inv_start hi h
  | stop c => exact inv_stop hi h
  | input i => exact inv_input hi hok h
  | executes c => exact inv_executes hi h
  | resumes c => exact inv_resumes hi hok h

theorem boot_inv (macros : Text → Option (List MacroStep)) : (boot macros).Inv := by
  refine ⟨⟨rfl, fun e he => absurd he List.not_mem_nil⟩, ?_, ?_⟩
  · intro ref href
    obtain ⟨c, m, steps, hcopy⟩ := href
    cases hcopy
  · intro r hr
    cases hr

/-- In a run that nothing disturbs no recording is replaced, and each one that has ended is
stored with the steps its inputs make. -/
theorem faithful_of_undisturbed (macros : Text → Option (List MacroStep))
    (run : List RecorderMove) (h : Along step Undisturbed (boot macros) run) :
    Always step Faithful (boot macros) run := by
  have hinv := always_of_along inv_step (boot_inv macros) h
  exact hinv.mono fun s hi => hi.faithful

def demo : Text := utf16 "demo"

/-- One macro without steps. -/
def oneMacro : Text → Option (List MacroStep) := Function.update (fun _ => none) demo (some [])

def startDemo : List RecorderMove := [.start 0 demo, .executes 0, .resumes 0]

/-- The user confirms while the stop waits for the database. -/
def lateInput : List RecorderMove :=
  startDemo ++ [.stop 1, .input (.userAction .confirm), .executes 1, .resumes 1]

/-- Both starts pass their check before either of them sets the recording. -/
def twoStarts : List RecorderMove :=
  [.start 0 demo, .start 1 demo, .executes 0, .executes 1, .resumes 0, .resumes 1]

theorem recording_lost :
    (∃ s, exec step (boot oneMacro) lateInput = some s ∧ s.macros demo = some [] ∧
      s.ended.map (·.recording.inputs) = [[.userAction .confirm]] ∧ ¬ s.Faithful) ∧
    ∃ s, exec step (boot oneMacro) twoStarts = some s ∧ ¬ s.Faithful := by
  constructor
  · refine ⟨_, rfl, ?_, rfl, ?_⟩
    · decide +kernel
    · intro h
      have hsteps := (h.2 _ List.mem_cons_self).2
      rw [recorded_eq] at hsteps
      revert hsteps
      decide +kernel
  · refine ⟨_, rfl, ?_⟩
    intro h
    cases h.1

/-- One recording with an input, then its stop. -/
def oneRecording : List RecorderMove :=
  startDemo ++ [.input (.userAction .confirm), .stop 1, .executes 1, .resumes 1]

theorem faithful_oneRecording : Always step Faithful (boot oneMacro) oneRecording := by
  apply faithful_of_undisturbed
  intro s hs
  cases hs
  refine ⟨trivial, ?_⟩
  intro s hs
  cases hs
  refine ⟨trivial, ?_⟩
  intro s hs
  cases hs
  refine ⟨fun call hc => by cases hc; rfl, ?_⟩
  intro s hs
  cases hs
  refine ⟨?_, ?_⟩
  · intro _ r _ hstop
    obtain ⟨i, macroId, steps, hcopy⟩ := hstop
    simp [copyAt, put, boot] at hcopy
  intro s hs
  cases hs
  refine ⟨trivial, ?_⟩
  intro s hs
  cases hs
  refine ⟨trivial, ?_⟩
  intro s hs
  cases hs
  refine ⟨?_, trivial⟩
  intro call hc
  cases hc
  intro r hr
  cases hr
  rfl

end RecorderService

end AtmXfs.Macro
