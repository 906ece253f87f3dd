import AtmXfs.Lib.Observers
import AtmXfs.Xfs.Manager

namespace AtmXfs.Xfs

open Runs

/-- What the operator console and XFS clients do to one device, beyond what is its own. -/
inductive DeviceAct (π β : Type) where
  | execute (commandCode : String) (payload : π)
  | injectError (result : XfsResult)
  | clearError
  | setResponseDelay (ms : Int)
  | reset
  | own (act : β)

/-- `handle` is what the class of the device does on acts of its own. -/
def deviceStep {σ π α β : Type} (k : DeviceClass Unit σ π α) (handle : σ → β → σ) (d : Device σ) :
    DeviceAct π β → Option (Device σ)
  | .execute commandCode payload => some (d.executeCommand k commandCode payload ()).2
  | .injectError result => some (d.injectError result)
  | .clearError => some d.clearError
  | .setResponseDelay ms => some (d.setResponseDelay ms)
  | .reset => some d.reset
  | .own act => some { d with own := handle d.own act }

/-- What an act does to the state of the class itself: the base class never touches it, and a
command either is the RESET of the class, meets an injected error, or is performed. -/
theorem deviceStep_own {σ π α β : Type} {k : DeviceClass Unit σ π α} {handle : σ → β → σ}
    {d d' : Device σ} {act : DeviceAct π β} (h : deviceStep k handle d act = some d') :
    d'.own = d.own ∨
    (∃ payload, act = .execute k.resetCode payload ∧ d'.own = (k.onReset d.own ()).1) ∨
    (∃ commandCode payload, act = .execute commandCode payload ∧ commandCode ≠ k.resetCode ∧
      d'.own = (k.perform d.own commandCode payload ()).1) ∨
    ∃ a, act = .own a ∧ d'.own = handle d.own a := by
  cases act with
  | execute commandCode payload =>
    cases h
    by_cases hreset : commandCode = k.resetCode
    · subst hreset
      refine .inr (.inl ⟨payload, rfl, ?_⟩)
      rw [Device.executeCommand_reset]
    · unfold Device.executeCommand
      rw [if_neg hreset]
      simp only [checkInjectedError]
      cases d.injectedError with
      | none => exact .inr (.inr (.inl ⟨commandCode, payload, rfl, hreset, rfl⟩))
      | some result => exact .inl rfl
  | injectError result =>
    cases h
    exact .inl rfl
  | clearError =>
    cases h
    exact .inl rfl
  | setResponseDelay ms =>
    cases h
    exact .inl rfl
  | reset =>
    cases h
    exact .inl rfl
  | own a =>
    cases h
    exact .inr (.inr (.inr ⟨a, rfl, rfl⟩))

inductive SiuAct where
  | setSensor (sensorId : SiuSensorId) (state : SiuSensorState)
  | setOperatorMode (mode : SiuOperatorMode)

def SiuState.handle (s : SiuState) : SiuAct → SiuState
  | .setSensor sensorId state => s.setSensor sensorId state
  | .setOperatorMode mode => s.setOperatorMode mode

abbrev siuStep : Device SiuState → DeviceAct (Option SiuSetIndicatorPayload) SiuAct →
    Option (Device SiuState) :=
  deviceStep (siuClass Unit) SiuState.handle

/-- The sensors and the operator mode. -/
structure SiuView where
  sensors : SiuSensorId → SiuSensorState
  operatorMode : SiuOperatorMode

/-- What a client that hears an event takes from it. -/
def SiuView.hear (v : SiuView) : SiuEvent → SiuView
  | .portStatus sensorId state _ =>
    ⟨Function.update v.sensors sensorId state,
      if sensorId = .operatorSwitch then (if state = .opened then .supervisor else .normal)
      else v.operatorMode⟩
  | .sensor _ _ _ _ => v
  | .operatorSwitch mode => { v with operatorMode := mode }

namespace SiuState

def view (s : SiuState) : SiuView := ⟨s.sensors, s.operatorMode⟩

/-- What a client knows that has heard every event since the device was opened. -/
def heard (s : SiuState) : SiuView := s.events.foldl .hear init.view

/-- What changes the sensors or the mode is told; RESET tells nobody, so it must change neither. -/
def audible (d : Device SiuState) :
    DeviceAct (Option SiuSetIndicatorPayload) SiuAct → Prop
  | .own (.setSensor sensorId state) => d.own.eventsEnabled = true ∨ d.own.sensors sensorId = state
  | .own (.setOperatorMode mode) => d.own.eventsEnabled = true ∨ d.own.operatorMode = mode
  | .execute commandCode _ => commandCode = "WFS_CMD_SIU_RESET" → d.own.view = init.view
  | _ => True

theorem perform_view (s : SiuState) (commandCode : String)
    (payload : Option SiuSetIndicatorPayload) :
    (s.perform commandCode payload).2.view = s.view ∧
      (s.perform commandCode payload).2.events = s.events := by
  unfold perform
  split_ifs
  · exact ⟨rfl, rfl⟩
  · exact ⟨rfl, rfl⟩
  · unfold handleSetIndicator
    split
    · exact ⟨rfl, rfl⟩
    · split
      · exact ⟨rfl, rfl⟩
      · split <;> exact ⟨rfl, rfl⟩
  · exact ⟨rfl, rfl⟩
  · exact ⟨rfl, rfl⟩

theorem heard_append {s s' : SiuState} (hs : s.heard = s.view) {events : List SiuEvent}
    (hevents : s'.events = s.events ++ events) : s'.heard = events.foldl .hear s.view := by
  rw [heard, hevents, List.foldl_append]
  exact congrArg (fun v => events.foldl SiuView.hear v) hs

/-- A sensor that changes is told of if events are on. -/
theorem heard_setSensor {s : SiuState} (hs : s.heard = s.view) (sensorId : SiuSensorId)
    (state : SiuSensorState) :
    (s.setSensor sensorId state).heard = (s.setSensor sensorId state).view ↔
      s.eventsEnabled = true ∨ s.sensors sensorId = state := by
  by_cases hsame : s.sensors sensorId = state
  · simp only [setSensor, hsame, if_true, hs, or_true]
  · cases hon : s.eventsEnabled with
    | true =>
      have hevents : (s.setSensor sensorId state).events = s.events ++
          [.portStatus sensorId state (s.sensors sensorId),
            .sensor (specificEventForSensor sensorId) sensorId state (s.sensors sensorId)] := by
        simp [setSensor, hsame, hon]
      rw [heard_append hs hevents]
      simp [setSensor, hsame, SiuView.hear, view]
    | false =>
      have hheard : (s.setSensor sensorId state).heard = s.view := by
        simp [setSensor, hsame, hon, ← hs, heard]
      rw [hheard]
      refine iff_of_false (fun h => ?_) (by simp [hsame])
      have hsensor := congrArg (fun v => v.sensors sensorId) h
      simp [setSensor, hsame, view] at hsensor

theorem heard_setOperatorMode {s : SiuState} (hs : s.heard = s.view) (mode : SiuOperatorMode) :
    (s.setOperatorMode mode).heard = (s.setOperatorMode mode).view ↔
      s.eventsEnabled = true ∨ s.operatorMode = mode := by
  cases hon : s.eventsEnabled with
  | true =>
    have hevents : (s.setOperatorMode mode).events = s.events ++ [.operatorSwitch mode] := by
      simp [setOperatorMode, hon]
    rw [heard_append hs hevents]
    simp [setOperatorMode, SiuView.hear, view]
  | false =>
    have hheard : (s.setOperatorMode mode).heard = s.view := by
      simp [setOperatorMode, hon, ← hs, heard]
    rw [hheard]
    simp [setOperatorMode, view]

/-- RESET puts the sensors and the mode back without a word. -/
theorem heard_resetOwn {s : SiuState} (hs : s.heard = s.view) :
    s.resetOwn.heard = s.resetOwn.view ↔ s.view = init.view := by
  have hheard : s.resetOwn.heard = s.view := hs
  rw [hheard]
  exact Iff.rfl

theorem heard_step {d d' : Device SiuState}
    {act : DeviceAct (Option SiuSetIndicatorPayload) SiuAct} (hs : d.own.heard = d.own.view)
    (h : siuStep d act = some d') : d'.own.heard = d'.own.view ↔ audible d act := by
  cases act with
  | execute commandCode payload =>
    rcases deviceStep_own h with hsame | ⟨_, hact, hown⟩ | ⟨_, _, hact, hne, hown⟩ | ⟨_, hact, _⟩
    · cases h
      refine iff_of_true (by rw [hsame, hs]) fun hreset => ?_
      subst hreset
      have hown : (d.executeCommand (siuClass Unit) "WFS_CMD_SIU_RESET" payload ()).2.own =
          d.own.resetOwn := rfl
      have hview : d.own.view = d.own.resetOwn.view := congrArg view (hsame.symm.trans hown)
      exact hview
    · cases hact
      rw [hown]
      exact (heard_resetOwn hs).trans ⟨fun h _ => h, fun h => h rfl⟩
    · cases hact
      obtain ⟨hview, hevents⟩ := perform_view d.own commandCode payload
      refine iff_of_true ?_ fun hreset => absurd hreset hne
      rw [hown]
      show (d.own.perform commandCode payload).2.heard = (d.own.perform commandCode payload).2.view
      rw [heard, hevents, hview]
      exact hs
    · cases hact
  | own a =>
    cases h
    cases a with
    | setSensor sensorId state => exact heard_setSensor hs sensorId state
    | setOperatorMode mode => exact heard_setOperatorMode hs mode
  | injectError result =>
    cases h
    exact iff_of_true hs trivial
  | clearError =>
    cases h
    exact iff_of_true hs trivial
  | setResponseDelay ms =>
    cases h
    exact iff_of_true hs trivial
  | reset =>
    cases h
    exact iff_of_true hs trivial

/-- A client that has heard every event knows the sensors and the operator mode in every state of
a run, if and only if nothing changed while events were off and no RESET found anything to put
back: exactly these changes reach no listener. -/
theorem siu_heard_iff (acts : List (DeviceAct (Option SiuSetIndicatorPayload) SiuAct)) :
    Always siuStep (fun d => d.own.heard = d.own.view) (.opened init) acts ↔
      Along siuStep audible (.opened init) acts :=
  always_iff_along (fun _ => True) (fun _ _ _ _ _ => trivial)
    (fun _ _ _ _ hs hstep => heard_step hs hstep) trivial rfl

end SiuState

/-- Cards are inserted at the console. -/
structure IdcAct where
  insertCard : VirtualCard

abbrev idcStep : Device IdcState → DeviceAct Unit IdcAct → Option (Device IdcState) :=
  deviceStep (idcClass Unit) fun s act => (s.insertCard act.insertCard).2

namespace IdcState

/-- The PAN in the reader, as the events tell it: a card comes into an empty reader, and the card
that leaves is the one that came. -/
def hear : Option String → IdcEvent → Option (Option String)
  | none, .mediaInserted pan => some (some pan)
  | some pan, .mediaRemoved pan' => if pan' = some pan then some none else none
  | some pan, .mediaRetained pan' => if pan' = some pan then some none else none
  | _, _ => none

/-- The events since the device was opened make sense, and this is the PAN that they leave in the
reader. -/
def heard (s : IdcState) : Option (Option String) := s.events.foldlM hear none

def view (s : IdcState) : Option String := s.currentCard.map (·.pan)

/-- RESET lets a card go and tells nobody. -/
def audible (d : Device IdcState) : DeviceAct Unit IdcAct → Prop
  | .execute commandCode _ => commandCode = "WFS_CMD_IDC_RESET" → d.own.cardHeld = false
  | _ => True

/-- The reader has a card exactly when it holds one. -/
def Consistent (s : IdcState) : Prop := s.currentCard.isSome = s.cardHeld

theorem heard_append {s s' : IdcState} {event : IdcEvent} (hs : s.heard = some s.view)
    (hevents : s'.events = s.events ++ [event]) (hhear : hear s.view event = some s'.view) :
    s'.heard = some s'.view := by
  have hlog : s.events.foldlM hear none = some s.view := hs
  rw [heard, hevents, List.foldlM_append, hlog]
  simpa using hhear

theorem heard_insertCard {s : IdcState} (hc : s.Consistent) (hs : s.heard = some s.view)
    (card : VirtualCard) :
    (s.insertCard card).2.Consistent ∧
      (s.insertCard card).2.heard = some (s.insertCard card).2.view := by
  unfold insertCard
  split_ifs with hheld
  · exact ⟨hc, hs⟩
  · have hempty : s.currentCard = none := by
      simpa [Consistent, hheld] using hc
    refine ⟨rfl, heard_append hs rfl ?_⟩
    simp [view, hempty, hear]

theorem heard_release {s : IdcState} (hc : s.Consistent) (hs : s.heard = some s.view)
    (missing : String) {event : Option String → IdcEvent}
    (hevent : ∀ pan, hear (some pan) (event (some pan)) = some none) :
    (s.release missing event).2.Consistent ∧
      (s.release missing event).2.heard = some (s.release missing event).2.view := by
  unfold release
  split_ifs with hheld
  · obtain ⟨card, hcard⟩ : ∃ card, s.currentCard = some card :=
      Option.isSome_iff_exists.mp (hc.trans hheld)
    refine ⟨rfl, heard_append hs rfl ?_⟩
    simpa [view, hcard] using hevent card.pan
  · exact ⟨hc, hs⟩

theorem heard_perform {s : IdcState} (hc : s.Consistent) (hs : s.heard = some s.view)
    (commandCode : String) :
    (s.perform commandCode).2.Consistent ∧
      (s.perform commandCode).2.heard = some (s.perform commandCode).2.view := by
  unfold perform
  split_ifs
  · exact ⟨hc, hs⟩
  · exact ⟨hc, hs⟩
  · exact heard_release hc hs _ (by simp [hear])
  · exact heard_release hc hs _ (by simp [hear])
  · exact ⟨hc, hs⟩
  · exact ⟨hc, hs⟩

theorem consistent_step {d d' : Device IdcState} {act : DeviceAct Unit IdcAct}
    (hc : d.own.Consistent) (h : idcStep d act = some d') : d'.own.Consistent := by
  rcases deviceStep_own h with hsame | ⟨_, _, hown⟩ | ⟨code, _, _, _, hown⟩ | ⟨a, _, hown⟩
  · rw [hsame]
    exact hc
  · rw [hown]
    rfl
  · rw [hown]
    show (d.own.perform code).2.Consistent
    unfold perform ejectCard retainCard release
    split_ifs <;> first | exact hc | rfl
  · rw [hown]
    unfold insertCard
    split_ifs <;> first | exact hc | rfl

theorem heard_step {d d' : Device IdcState} {act : DeviceAct Unit IdcAct}
    (hc : d.own.Consistent) (hs : d.own.heard = some d.own.view)
    (h : idcStep d act = some d') : d'.own.heard = some d'.own.view ↔ audible d act := by
  rcases deviceStep_own h with hsame | ⟨_, rfl, hown⟩ | ⟨code, _, rfl, hne, hown⟩ | ⟨a, rfl, hown⟩
  · refine iff_of_true (by rw [hsame, hs]) ?_
    cases act with
    | execute commandCode payload =>
      rintro rfl
      cases h
      have hown : (d.executeCommand (idcClass Unit) "WFS_CMD_IDC_RESET" payload ()).2.own =
          ⟨none, false, d.own.events⟩ := rfl
      exact congrArg cardHeld (hsame.symm.trans hown)
    | _ => trivial
  · rw [hown]
    have hheard : IdcState.heard ⟨none, false, d.own.events⟩ = some d.own.view := hs
    show IdcState.heard ⟨none, false, d.own.events⟩ = some none ↔ _
    rw [hheard, audible, view]
    unfold Consistent at hc
    rw [← hc]
    cases d.own.currentCard <;> simp [idcClass]
  · refine iff_of_true ?_ fun hreset => absurd hreset hne
    rw [hown]
    exact (heard_perform hc hs code).2
  · refine iff_of_true ?_ trivial
    rw [hown]
    exact (heard_insertCard hc hs a.insertCard).2

/-- In every run of the card reader its events are a word of insertions and departures of the very
cards that were inserted, and leave the listener with the PAN that is in the reader, if and only
if no RESET finds a card in it. -/
theorem idc_heard_iff (acts : List (DeviceAct Unit IdcAct)) :
    Always idcStep (fun d => d.own.heard = some d.own.view) (.opened init) acts ↔
      Along idcStep audible (.opened init) acts :=
  always_iff_along (fun d => d.own.Consistent) (fun _ _ _ hc hstep => consistent_step hc hstep)
    (fun _ _ _ hc hs hstep => heard_step hc hs hstep) rfl rfl

end IdcState

end AtmXfs.Xfs
