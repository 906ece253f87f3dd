import AtmXfs.Macro.Runner

namespace AtmXfs.Macro

open Js RecordingSession

/-- `/^\d{2,}$/.test(resolved)`. -/
def isMultiDigit (resolved : Text) : Bool := 2 ≤ resolved.length ∧ resolved.all isDigitUnit

/-- `ctx.variables`, each value as the string it is read as. -/
abbrev Variables := Text → Option Text

/-- `none` stands for the error of an unset variable. -/
def resolveKey (vars : Variables) (raw : Text) : Option Text :=
  if raw = utf16 "Card.pin" then some (utf16 "111111")
  else if raw.head? = some 36 then vars raw.tail
  else some raw

/-- The keys of a text, one for each of its characters. -/
def keysOf (s : Text) : List Text := s.map fun u => [u]

/-- What a `KeyPressed` step presses for a resolved key. -/
def presses (resolved : Text) : List Text :=
  if isMultiDigit resolved then keysOf resolved else [resolved]

/-- `String(params.key ?? '')`; the value of a recorded key is a text. -/
def keyText (step : MacroStep) : Text :=
  match step.parameters.reverse.find? fun p => p.name = utf16 "key" with
  | some ⟨_, _, .text key, _⟩ => key
  | _ => []

/-- The keys pressed by replaying steps in order, with the variables that each step finds. `pins`
are the runs of digits which the `EnterPin` steps replaced; other steps press no key. The run ends
at an unset variable, while a step that is not supported is skipped. -/
def replay (vars : Nat → Variables) : List Text → List MacroStep → List Text
  | _, [] => []
  | pins, step :: rest =>
    match dispatch step with
    | some .keyPressed =>
      match resolveKey (vars step.order) (keyText step) with
      | some resolved => presses resolved ++ replay vars pins rest
      -- the step throws, and the run ends with it
      | none => []
    | some .enterPin => keysOf (pins.headD []) ++ keyEnter :: replay vars pins.tail rest
    | _ => replay vars pins rest

namespace Input

/-- The key that an input is the press of. -/
def key? : Input → Option Text
  | .userAction (.keyPress key) => some key
  | _ => none

/-- The input ends a run of digits. -/
def flushes : Input → Bool
  | .userAction (.keyPress key) => !isDigitKey key
  | .userAction _ => true
  | .xfsEvent eventCode => (eventToCheckpoint eventCode).isSome

end Input

def keysPressed (inputs : List Input) : List Text := inputs.filterMap Input.key?

/-- The runs of digits of a recording, with the one that is open at its start. -/
def digitRuns (run : Text) : List Input → List Text
  | [] => [run]
  | i :: rest =>
    if i.flushes then run :: digitRuns [] rest else digitRuns (run ++ (i.key?.getD [])) rest

/-- The runs that are recorded as a PIN. -/
def pinRuns (run : Text) (inputs : List Input) : List Text :=
  (digitRuns run inputs).filter isPinShape

/-- A control key that a replay resolves to itself, whatever the variables hold. -/
def StandsForItself (key : Text) : Prop :=
  key ≠ utf16 "Card.pin" ∧ key.head? ≠ some 36 ∧ isMultiDigit key = false

instance (key : Text) : Decidable (StandsForItself key) := inferInstanceAs (Decidable (_ ∧ _ ∧ _))

/-- The next key after a run that is recorded as a PIN is ENTER; any other control key stands for
itself. `due` says that such a run has ended and no key has come since. -/
def EnterFollows (due : Bool) (run : Text) : List Input → Prop
  | [] => (due || isPinShape run) = false
  | i :: rest =>
    match i.key? with
    | none =>
      if i.flushes then EnterFollows (due || isPinShape run) [] rest else EnterFollows due run rest
    | some key =>
      if isDigitKey key then due = false ∧ EnterFollows due (run ++ key) rest
      else
        (if due || isPinShape run then key = keyEnter else StandsForItself key) ∧
          EnterFollows false [] rest

/-- A branch that presses no keys. -/
def Silent (handler : Option Handler) : Prop :=
  handler ≠ some .keyPressed ∧ handler ≠ some .enterPin

instance (handler : Option Handler) : Decidable (Silent handler) :=
  inferInstanceAs (Decidable (_ ∧ _))

theorem Silent.ite {c : Prop} [Decidable c] {a b : Option Handler} (ha : Silent a)
    (hb : Silent b) : Silent (if c then a else b) := by
  by_cases hc : c
  · rw [if_pos hc]
    exact ha
  · rw [if_neg hc]
    exact hb

/-- Only steps of the PIN pad press keys. -/
theorem silent_dispatch {step : MacroStep} (h : step.device ≠ some .pinPad) :
    Silent (dispatch step) := by
  unfold dispatch
  cases hdevice : step.device with
  | none => exact ⟨nofun, nofun⟩
  | some device =>
    cases device with
    | pinPad => exact absurd hdevice h
    | card =>
      show Silent (cardHandler step)
      unfold cardHandler
      repeat' apply Silent.ite
      all_goals decide
    | cash => exact .ite (by decide) (by decide)
    | receipt => exact .ite (by decide) (by decide)
    | screen => exact ⟨nofun, nofun⟩
    | system =>
      show Silent (systemHandler step)
      unfold systemHandler
      repeat' apply Silent.ite
      all_goals decide

theorem replay_silent (vars : Nat → Variables) (pins : List Text) {silent : List MacroStep}
    (rest : List MacroStep) (h : ∀ step ∈ silent, step.device ≠ some .pinPad) :
    replay vars pins (silent ++ rest) = replay vars pins rest := by
  induction silent with
  | nil => rfl
  | cons step silent ih =>
    obtain ⟨hkey, hpin⟩ := silent_dispatch (h step (List.mem_cons_self ..))
    rw [List.cons_append, replay]
    split
    · contradiction
    · contradiction
    · exact ih fun step hstep => h step (List.mem_cons_of_mem _ hstep)

theorem checkpoint_device {eventCode : Text} {device : Option MacroDevice}
    {operation : Option Text} (h : eventToCheckpoint eventCode = some (device, operation)) :
    device ≠ some .pinPad := by
  unfold eventToCheckpoint at h
  split_ifs at h <;> cases h <;> decide

/-- An input that presses no key flushes the run, and then saves steps that press none. -/
theorem observe_silent (s : RecordingSession) {i : Input} (hkey : i.key? = none)
    (hflush : i.flushes = true) :
    (∃ silent, (s.observe i).steps = s.flushDigitBuffer.steps ++ silent ∧
      ∀ step ∈ silent, step.device ≠ some .pinPad) ∧
    (s.observe i).digitBuffer = [] ∧
    (s.observe i).absorbNextEnter = (s.absorbNextEnter || isPinShape s.digitBuffer) := by
  have hbuffer := flushDigitBuffer_digitBuffer s
  have habsorb := flushDigitBuffer_absorbNextEnter s
  cases i with
  | userAction action =>
    cases action with
    | keyPress key => cases hkey
    | cardInsert pan =>
      refine ⟨⟨_, List.append_assoc .., ?_⟩, hbuffer, habsorb⟩
      simp
    | selectTransaction txnType => exact ⟨⟨_, rfl, by simp⟩, hbuffer, habsorb⟩
    | submitAmount amount => exact ⟨⟨_, rfl, by simp⟩, hbuffer, habsorb⟩
    | confirm => exact ⟨⟨_, rfl, by simp⟩, hbuffer, habsorb⟩
    | cancel reason => exact ⟨⟨_, rfl, by simp⟩, hbuffer, habsorb⟩
  | xfsEvent eventCode =>
    obtain ⟨checkpoint, hcheckpoint⟩ := Option.isSome_iff_exists.mp hflush
    have hdevice := checkpoint_device hcheckpoint
    simp only [observe, onXfsEvent, hcheckpoint]
    exact ⟨⟨_, rfl, by simpa using hdevice⟩, hbuffer, habsorb⟩

theorem replay_keyPressed (vars : Nat → Variables) (pins : List Text) (order : Nat) (key : Text)
    (rest : List MacroStep) :
    replay vars pins (⟨order, .action, some .pinPad, some (utf16 "KeyPressed"),
        [keyParameter key], true⟩ :: rest) =
      match resolveKey (vars order) key with
      | some resolved => presses resolved ++ replay vars pins rest
      | none => [] := rfl

theorem replay_enterPin (vars : Nat → Variables) (pins : List Text) (order : Nat) (pin : Text)
    (parameters : List MacroParameter) (rest : List MacroStep) :
    replay vars (pin :: pins) (⟨order, .action, some .pinPad, some (utf16 "EnterPin"),
        parameters, true⟩ :: rest) =
      keysOf pin ++ keyEnter :: replay vars pins rest := rfl

/-- A run of digits stands for its keys. -/
theorem resolveKey_digits (vars : Variables) {run : Text} (hne : run ≠ [])
    (hrun : ∀ u ∈ run, isDigitUnit u = true) :
    resolveKey vars run = some run ∧ presses run = keysOf run := by
  obtain ⟨u, us, rfl⟩ := List.exists_cons_of_ne_nil hne
  have hu : isDigitUnit u = true := hrun u (List.mem_cons_self ..)
  have hname : u :: us ≠ utf16 "Card.pin" := by
    intro heq
    rw [(List.cons.inj heq).1] at hu
    exact absurd hu (by decide)
  have hdollar : u ≠ 36 := by
    intro heq
    rw [heq] at hu
    exact absurd hu (by decide)
  constructor
  · rw [resolveKey, if_neg hname, if_neg (by simpa using hdollar)]
  · unfold presses
    by_cases hmany : isMultiDigit (u :: us) = true
    · rw [if_pos hmany]
    · have hall : (u :: us).all isDigitUnit = true := List.all_eq_true.mpr hrun
      have hone : us = [] := by
        by_contra hus
        have hlength := List.length_pos_iff.mpr hus
        exact hmany (by simp only [isMultiDigit, hall, List.length_cons]; simp; omega)
      rw [if_neg hmany, hone]
      rfl

/-- ENTER, once an `EnterPin` step has pressed it of its own. -/
def owed (due : Bool) : List Text := if due then [keyEnter] else []

/-- A flush, replayed: the keys of the run, and after a PIN an ENTER of its own. -/
theorem replay_flush (vars : Nat → Variables) {s : RecordingSession} (hsteps : s.steps = [])
    (hrun : ∀ u ∈ s.digitBuffer, isDigitUnit u = true) (runs : List Text)
    (rest : List MacroStep) :
    replay vars ((s.digitBuffer :: runs).filter isPinShape) (s.flushDigitBuffer.steps ++ rest) =
      keysOf s.digitBuffer ++ owed (isPinShape s.digitBuffer) ++
        replay vars (runs.filter isPinShape) rest := by
  by_cases hempty : s.digitBuffer = []
  · rw [flushDigitBuffer_nil hempty, hsteps, hempty]
    rfl
  · cases hpin : isPinShape s.digitBuffer with
    | true =>
      rw [flushDigitBuffer_pin hpin, hsteps, List.filter_cons_of_pos hpin]
      exact (replay_enterPin ..).trans (by simp [owed])
    | false =>
      obtain ⟨hresolve, hpresses⟩ := resolveKey_digits (vars s.counter) hempty hrun
      rw [flushDigitBuffer_keys hempty hpin, hsteps, List.filter_cons_of_neg (by simp [hpin])]
      have hreplay := replay_keyPressed vars (runs.filter isPinShape) s.counter s.digitBuffer rest
      rw [hresolve] at hreplay
      exact hreplay.trans (by simp [owed, hpresses])

/-- A text of several digits is pressed as digit keys. -/
theorem isDigitKey_of_presses {resolved key : Text} {more keys : List Text}
    (h : isMultiDigit resolved = true) (heq : presses resolved ++ more = key :: keys) :
    isDigitKey key = true := by
  rw [presses, if_pos h] at heq
  simp only [isMultiDigit, decide_eq_true_eq] at h
  obtain ⟨hlength, hall⟩ := h
  cases resolved with
  | nil => simp at hlength
  | cons u us =>
    have hu : isDigitUnit u = true := List.all_eq_true.mp hall u (List.mem_cons_self ..)
    rw [← (List.cons.inj heq).1]
    exact hu

/-- Where no variable is set, only a control key that stands for itself is replayed as itself. -/
theorem standsForItself_of_replay {key : Text} (hkey : isDigitKey key = false)
    {pins keys : List Text} {order : Nat} {rest : List MacroStep}
    (heq : replay (fun _ _ => none) pins (⟨order, .action, some .pinPad,
      some (utf16 "KeyPressed"), [keyParameter key], true⟩ :: rest) = key :: keys) :
    StandsForItself key := by
  rw [replay_keyPressed] at heq
  have hname : key ≠ utf16 "Card.pin" := by
    intro hpin
    rw [show resolveKey (fun _ => none) key = some (utf16 "111111") from if_pos hpin] at heq
    have hdigit := isDigitKey_of_presses (by decide) heq
    exact Bool.false_ne_true (hkey.symm.trans hdigit)
  have hdollar : key.head? ≠ some 36 := by
    intro hdollar
    rw [resolveKey, if_neg hname, if_pos hdollar] at heq
    cases heq
  rw [resolveKey, if_neg hname, if_neg hdollar] at heq
  refine ⟨hname, hdollar, ?_⟩
  cases hmany : isMultiDigit key with
  | false => rfl
  | true => exact absurd (isDigitKey_of_presses hmany heq) (by simp [hkey])

theorem replay_itself {key : Text} (h : StandsForItself key) (vars : Nat → Variables)
    (pins : List Text) (order : Nat) (rest : List MacroStep) :
    replay vars pins (⟨order, .action, some .pinPad, some (utf16 "KeyPressed"),
        [keyParameter key], true⟩ :: rest) = key :: replay vars pins rest := by
  obtain ⟨hname, hdollar, hone⟩ := h
  rw [replay_keyPressed, resolveKey, if_neg hname, if_neg hdollar]
  simp [presses, hone]

theorem pinRuns_flush (run : Text) {i : Input} (inputs : List Input) (h : i.flushes = true) :
    pinRuns run (i :: inputs) = (run :: digitRuns [] inputs).filter isPinShape := by
  rw [pinRuns, digitRuns, if_pos h]

/-- What holds between two inputs: nothing is saved yet, the open run is of digits, and it is
empty while an ENTER is awaited. -/
structure Between (s : RecordingSession) : Prop where
  steps : s.steps = []
  digits : ∀ u ∈ s.digitBuffer, isDigitUnit u = true
  run : s.absorbNextEnter = true → s.digitBuffer = []

/-- The keys that replay and recording have in common, from a state between two inputs on. -/
def Faithful (s : RecordingSession) (inputs : List Input) : Prop :=
  ∀ vars : Nat → Variables,
    owed s.absorbNextEnter ++ replay vars (pinRuns s.digitBuffer inputs) (s.saved inputs) =
      keysOf s.digitBuffer ++ keysPressed inputs

/-- The same after a flush: the keys of the run are equal on both sides. -/
theorem owed_flush {s : RecordingSession} (h : Between s) (replayed keys : List Text) :
    owed s.absorbNextEnter ++
        (keysOf s.digitBuffer ++ owed (isPinShape s.digitBuffer) ++ replayed) =
        keysOf s.digitBuffer ++ keys ↔
      owed (s.absorbNextEnter || isPinShape s.digitBuffer) ++ replayed = keys := by
  cases habsorb : s.absorbNextEnter with
  | true =>
    rw [h.run habsorb]
    exact Iff.rfl
  | false =>
    simp only [owed, Bool.false_eq_true, if_false, Bool.false_or, List.nil_append,
      List.append_assoc]
    exact List.append_right_inj _

theorem between_flushed {s : RecordingSession} (h : s.digitBuffer = []) : Between s.fresh :=
  ⟨rfl, by simp [fresh, h], fun _ => h⟩

/-- An input that flushes, and what it saves after the flush. -/
theorem replay_saved_cons {s : RecordingSession} (h : Between s) {i : Input}
    (hflush : i.flushes = true) (inputs : List Input) (hbuffer : (s.observe i).digitBuffer = [])
    {pushed : List MacroStep} (hsteps : (s.observe i).steps = s.flushDigitBuffer.steps ++ pushed)
    (vars : Nat → Variables) :
    replay vars (pinRuns s.digitBuffer (i :: inputs)) (s.saved (i :: inputs)) =
      keysOf s.digitBuffer ++ owed (isPinShape s.digitBuffer) ++
        replay vars (pinRuns (s.observe i).fresh.digitBuffer inputs)
          (pushed ++ (s.observe i).fresh.saved inputs) := by
  have hrun : (s.observe i).fresh.digitBuffer = [] := hbuffer
  rw [pinRuns_flush s.digitBuffer inputs hflush, saved_cons, hsteps, List.append_assoc,
    replay_flush vars h.steps h.digits, hrun]
  rfl

theorem faithful_silent {s : RecordingSession} (h : Between s) {i : Input}
    (hkey : i.key? = none) (hflush : i.flushes = true) (inputs : List Input) :
    Faithful s (i :: inputs) ↔ Faithful (s.observe i).fresh inputs := by
  obtain ⟨⟨silent, hsteps, hsilent⟩, hbuffer, habsorb⟩ := observe_silent s hkey hflush
  have hkeys : keysPressed (i :: inputs) = keysPressed inputs := by simp [keysPressed, hkey]
  have hrun : (s.observe i).fresh.digitBuffer = [] := hbuffer
  have hdue : (s.observe i).fresh.absorbNextEnter =
      (s.absorbNextEnter || isPinShape s.digitBuffer) := habsorb
  refine forall_congr' fun vars => ?_
  rw [replay_saved_cons h hflush inputs hbuffer hsteps, replay_silent vars _ _ hsilent, hkeys,
    owed_flush h, hdue, hrun]
  rfl

/-- The ENTER that an `EnterPin` step presses of its own is not recorded again. -/
theorem observe_enter {s : RecordingSession}
    (hdue : (s.absorbNextEnter || isPinShape s.digitBuffer) = true) :
    s.observe (.userAction (.keyPress keyEnter)) =
      { s.flushDigitBuffer with absorbNextEnter := false } := by
  have habsorb : keyEnter = keyEnter ∧ s.flushDigitBuffer.absorbNextEnter = true :=
    ⟨rfl, (flushDigitBuffer_absorbNextEnter s).trans hdue⟩
  exact if_pos habsorb

theorem observe_control {s : RecordingSession} {key : Text} (hkey : isDigitKey key = false)
    (hrecorded : key ≠ keyEnter ∨ (s.absorbNextEnter || isPinShape s.digitBuffer) = false) :
    s.observe (.userAction (.keyPress key)) =
      { s.flushDigitBuffer with absorbNextEnter := false }.pushStep .action (some .pinPad)
        (some (utf16 "KeyPressed")) [keyParameter key] := by
  have habsorb := flushDigitBuffer_absorbNextEnter s
  have hnot : ¬(key = keyEnter ∧ s.flushDigitBuffer.absorbNextEnter = true) := by
    rintro ⟨henter, htrue⟩
    rcases hrecorded with hne | hfalse
    · exact hne henter
    · rw [habsorb, hfalse] at htrue
      exact Bool.false_ne_true htrue
  show s.onKeyPress key = _
  rw [onKeyPress, if_neg (by simp [hkey])]
  exact if_neg hnot

/-- A control key: after a PIN it has to be ENTER, else it has to stand for itself. -/
theorem faithful_control {s : RecordingSession} (h : Between s) {key : Text}
    (hkey : isDigitKey key = false) (inputs : List Input) :
    Faithful s (.userAction (.keyPress key) :: inputs) ↔
      (if s.absorbNextEnter || isPinShape s.digitBuffer then key = keyEnter
        else StandsForItself key) ∧
      Faithful (s.observe (.userAction (.keyPress key))).fresh inputs := by
  have hflush : Input.flushes (.userAction (.keyPress key)) = true := by
    simp [Input.flushes, hkey]
  have hrun := flushDigitBuffer_digitBuffer s
  have hkeys : keysPressed (.userAction (.keyPress key) :: inputs) = key :: keysPressed inputs :=
    rfl
  by_cases henter : key = keyEnter ∧ (s.absorbNextEnter || isPinShape s.digitBuffer) = true
  · obtain ⟨rfl, hdue⟩ := henter
    have hobserve := observe_enter hdue
    rw [if_pos hdue, and_iff_right rfl]
    refine forall_congr' fun vars => ?_
    have hsteps : (s.observe (.userAction (.keyPress keyEnter))).steps =
        s.flushDigitBuffer.steps ++ [] := by rw [hobserve]; simp
    rw [replay_saved_cons h hflush inputs (by rw [hobserve]; exact hrun) hsteps, hkeys,
      owed_flush h, hdue, hobserve]
    simp only [owed, fresh, hrun, List.nil_append, if_true, Bool.false_eq_true, if_false]
    exact List.cons_inj_right _
  · have hobserve := observe_control hkey (s := s)
      (by rw [← Bool.not_eq_true]; exact not_and_or.mp henter)
    have hcons (vars : Nat → Variables) :=
      replay_saved_cons h hflush inputs (by rw [hobserve]; exact hrun) (by rw [hobserve]; rfl) vars
    have hfresh : Faithful (s.observe (.userAction (.keyPress key))).fresh inputs ↔
        ∀ vars, replay vars (pinRuns [] inputs)
          ((s.observe (.userAction (.keyPress key))).fresh.saved inputs) = keysPressed inputs := by
      rw [hobserve]
      simp only [Faithful, fresh, pushStep, hrun]
      exact Iff.rfl
    have hhere : Faithful s (.userAction (.keyPress key) :: inputs) ↔
        ∀ vars, owed (s.absorbNextEnter || isPinShape s.digitBuffer) ++
          replay vars (pinRuns [] inputs)
            (⟨s.flushDigitBuffer.counter, .action, some .pinPad, some (utf16 "KeyPressed"),
              [keyParameter key], true⟩ ::
                (s.observe (.userAction (.keyPress key))).fresh.saved inputs) =
          key :: keysPressed inputs := by
      refine forall_congr' fun vars => ?_
      rw [hcons vars, hkeys, owed_flush h, hobserve]
      simp only [fresh, pushStep, hrun]
      exact Iff.rfl
    rw [hfresh, hhere]
    cases hdue : s.absorbNextEnter || isPinShape s.digitBuffer with
    | true =>
      have hne : key ≠ keyEnter := fun heq => henter ⟨heq, hdue⟩
      refine iff_of_false (fun hall => ?_) fun hand => hne hand.1
      exact hne (List.cons.inj (hall fun _ _ => none)).1.symm
    | false =>
      rw [if_neg Bool.false_ne_true]
      constructor
      · intro hall
        have hitself := standsForItself_of_replay hkey (hall fun _ _ => none)
        refine ⟨hitself, fun vars => ?_⟩
        have hvars := hall vars
        simp only [owed, Bool.false_eq_true, if_false, List.nil_append,
          replay_itself hitself] at hvars
        exact (List.cons.inj hvars).2
      · rintro ⟨hitself, hall⟩ vars
        simp only [owed, Bool.false_eq_true, if_false, List.nil_append, replay_itself hitself,
          hall vars]

/-- A digit while ENTER is awaited is replayed behind an ENTER that was not pressed. -/
theorem faithful_digit {s : RecordingSession} (h : Between s) {key : Text}
    (hkey : isDigitKey key = true) (inputs : List Input) :
    Faithful s (.userAction (.keyPress key) :: inputs) ↔
      s.absorbNextEnter = false ∧
        Faithful { s with digitBuffer := s.digitBuffer ++ key } inputs := by
  have hobserve : s.observe (.userAction (.keyPress key)) =
      { s with digitBuffer := s.digitBuffer ++ key } := if_pos hkey
  have hsaved : s.saved (.userAction (.keyPress key) :: inputs) =
      { s with digitBuffer := s.digitBuffer ++ key }.saved inputs := by
    rw [saved, List.foldl_cons, hobserve]
    rfl
  have hruns : pinRuns s.digitBuffer (.userAction (.keyPress key) :: inputs) =
      pinRuns (s.digitBuffer ++ key) inputs := by
    rw [pinRuns, digitRuns, if_neg (by simp [Input.flushes, hkey])]
    rfl
  have hkeys : keysOf s.digitBuffer ++ keysPressed (.userAction (.keyPress key) :: inputs) =
      keysOf (s.digitBuffer ++ key) ++ keysPressed inputs := by
    cases key with
    | nil => simp [isDigitKey] at hkey
    | cons u us =>
      cases us with
      | nil => simp [keysOf, keysPressed, Input.key?]
      | cons v vs => simp [isDigitKey] at hkey
  by_cases habsorb : s.absorbNextEnter = true
  · refine iff_of_false (fun hall => ?_) fun hand => by simp [habsorb] at hand
    have hfirst := hall fun _ _ => none
    rw [habsorb, h.run habsorb] at hfirst
    have hdigit : keyEnter = key := (List.cons.inj hfirst).1
    rw [← hdigit] at hkey
    exact absurd hkey (by decide)
  · rw [and_iff_right (Bool.eq_false_iff.mpr habsorb)]
    refine forall_congr' fun vars => ?_
    rw [hsaved, hruns, hkeys]

theorem eq_keyPress {i : Input} {key : Text} (h : i.key? = some key) :
    i = .userAction (.keyPress key) := by
  cases i with
  | xfsEvent eventCode => cases h
  | userAction action =>
    cases action with
    | keyPress pressed =>
      cases h
      rfl
    | _ => cases h

theorem between_digit {s : RecordingSession} (h : Between s) {key : Text}
    (hkey : isDigitKey key = true) (habsorb : s.absorbNextEnter = false) :
    Between { s with digitBuffer := s.digitBuffer ++ key } := by
  refine ⟨h.steps, fun u hu => ?_, fun htrue => absurd htrue (by simp [habsorb])⟩
  rcases List.mem_append.mp hu with hu | hu
  · exact h.digits u hu
  · unfold isDigitKey at hkey
    split at hkey
    · rw [List.mem_singleton.mp hu]
      exact hkey
    · cases hkey

theorem observe_key (s : RecordingSession) {key : Text} (hkey : isDigitKey key = false) :
    (s.observe (.userAction (.keyPress key))).digitBuffer = [] ∧
      (s.observe (.userAction (.keyPress key))).absorbNextEnter = false := by
  have hrun := flushDigitBuffer_digitBuffer s
  by_cases henter : key = keyEnter ∧ (s.absorbNextEnter || isPinShape s.digitBuffer) = true
  · obtain ⟨rfl, hdue⟩ := henter
    rw [observe_enter hdue]
    exact ⟨hrun, rfl⟩
  · rw [observe_control hkey (by rw [← Bool.not_eq_true]; exact not_and_or.mp henter)]
    exact ⟨hrun, rfl⟩

theorem faithful_ignored (s : RecordingSession) {i : Input} (hkey : i.key? = none)
    (hflush : i.flushes = false) (inputs : List Input) :
    Faithful s (i :: inputs) ↔ Faithful s inputs := by
  have hobserve : s.observe i = s := by
    cases i with
    | userAction action =>
      cases action with
      | keyPress key => cases hkey
      | _ => cases hflush
    | xfsEvent eventCode =>
      have hnone : eventToCheckpoint eventCode = none := by simpa [Input.flushes] using hflush
      simp [observe, onXfsEvent, hnone]
  have hsaved : s.saved (i :: inputs) = s.saved inputs := by
    rw [saved, List.foldl_cons, hobserve]
    rfl
  have hruns : pinRuns s.digitBuffer (i :: inputs) = pinRuns s.digitBuffer inputs := by
    rw [pinRuns, digitRuns, if_neg (by simp [hflush]), hkey]
    simp [pinRuns]
  have hkeys : keysPressed (i :: inputs) = keysPressed inputs := by simp [keysPressed, hkey]
  simp only [Faithful, hsaved, hruns, hkeys]

theorem faithful_iff (inputs : List Input) {s : RecordingSession} (h : Between s) :
    Faithful s inputs ↔ EnterFollows s.absorbNextEnter s.digitBuffer inputs := by
  induction inputs generalizing s with
  | nil =>
    have hend (vars : Nat → Variables) :
        replay vars (pinRuns s.digitBuffer []) (s.saved []) =
          keysOf s.digitBuffer ++ owed (isPinShape s.digitBuffer) ++ [] := by
      have hflush := replay_flush vars h.steps h.digits [] []
      rw [List.append_nil] at hflush
      exact hflush
    have hdue : Faithful s [] ↔
        ∀ _ : Nat → Variables, owed (s.absorbNextEnter || isPinShape s.digitBuffer) ++ [] = [] :=
      forall_congr' fun vars => by rw [hend vars]; exact owed_flush h [] []
    rw [hdue, EnterFollows]
    cases s.absorbNextEnter || isPinShape s.digitBuffer with
    | true => simp [owed]
    | false => simp [owed]
  | cons i inputs ih =>
    cases hkey : i.key? with
    | some key =>
      obtain rfl : i = .userAction (.keyPress key) := eq_keyPress hkey
      rw [EnterFollows]
      simp only [hkey]
      cases hdigit : isDigitKey key with
      | true =>
        rw [faithful_digit h hdigit, if_pos rfl]
        exact and_congr_right fun habsorb => ih (between_digit h hdigit habsorb)
      | false =>
        obtain ⟨hbuffer, habsorb⟩ := observe_key s hdigit
        have hrun : (s.observe (.userAction (.keyPress key))).fresh.digitBuffer = [] := hbuffer
        have hdue : (s.observe (.userAction (.keyPress key))).fresh.absorbNextEnter = false :=
          habsorb
        rw [faithful_control h hdigit, ih (between_flushed hbuffer), if_neg Bool.false_ne_true,
          hrun, hdue]
    | none =>
      rw [EnterFollows]
      simp only [hkey]
      cases hflush : i.flushes with
      | true =>
        obtain ⟨-, hbuffer, habsorb⟩ := observe_silent s hkey hflush
        rw [faithful_silent h hkey hflush, ih (between_flushed hbuffer), if_pos rfl]
        have hrun : (s.observe i).fresh.digitBuffer = [] := hbuffer
        have hdue : (s.observe i).fresh.absorbNextEnter =
          (s.absorbNextEnter || isPinShape s.digitBuffer) := habsorb
        rw [hrun, hdue]
      | false =>
        rw [if_neg Bool.false_ne_true, ← ih h]
        exact faithful_ignored s hkey hflush inputs

/-- A replay presses the recorded keys, whatever its variables hold, exactly if every run of digits
that is recorded as a PIN was followed by ENTER and the other keys stand for themselves. -/
theorem replay_recorded_iff (inputs : List Input) :
    (∀ vars : Nat → Variables,
      replay vars (pinRuns [] inputs) (runOrder (recorded inputs)) = keysPressed inputs) ↔
      EnterFollows false [] inputs := by
  rw [runOrder_recorded]
  exact faithful_iff inputs (s := startRecording)
    ⟨rfl, by simp [startRecording], fun _ => rfl⟩

/-- Four digits and CLEAR. -/
def clearedDigits : List Input :=
  ["1", "2", "3", "4", "CLEAR"].map fun key => .userAction (.keyPress (utf16 key))

/-- The replay presses an ENTER between them. -/
theorem replay_clearedDigits (vars : Nat → Variables) :
    replay vars (pinRuns [] clearedDigits) (runOrder (recorded clearedDigits)) =
      ["1", "2", "3", "4", "ENTER", "CLEAR"].map utf16 := by
  rw [runOrder_recorded]
  rfl

theorem clearedDigits_replayed_otherwise :
    ¬∀ vars : Nat → Variables,
      replay vars (pinRuns [] clearedDigits) (runOrder (recorded clearedDigits)) =
        keysPressed clearedDigits := by
  intro h
  have hkeys := (replay_clearedDigits fun _ _ => none).symm.trans (h fun _ _ => none)
  exact absurd hkeys (by decide)

end AtmXfs.Macro
