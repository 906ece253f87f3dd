import AtmXfs.Xfs.Manager

namespace AtmXfs.Xfs

open Js

/-- What RESET clears of a device's own state is clear already. -/
def AtRest {κ : Type} : (c : XfsServiceClass) → Own κ c → Prop
  | .idc => fun s : IdcState => s.currentCard = none ∧ s.cardHeld = false
  | .pin => fun pad : Pin.Pad κ => pad.active = none ∧ pad.pinBuffer = []
  | .cdm => fun s : CdmState => s.1.presentedCash = none ∧ s.1.takeTimer = false
  | .ptr => fun _ => True
  | .siu => fun s : SiuState =>
    s.sensors = SiuState.defaultSensors ∧ s.indicators = SiuState.defaultIndicators ∧
      s.operatorMode = .normal ∧ s.eventsEnabled = true

namespace Device

variable {κ σ π α : Type}

/-- The inherited reset does what the RESET command does iff that has nothing to add. -/
theorem reset_eq_resetCommand (k : DeviceClass κ σ π α) (d : Device σ) (payload : π)
    (caller : κ) :
    d.reset = (d.executeCommand k k.resetCode payload caller).2 ↔
      (k.onReset d.own caller).1 = d.own := by
  rw [executeCommand_reset]
  constructor
  · intro h
    have hown := congrArg Device.own h
    exact hown.symm
  · intro h
    show d.reset = { d.reset with own := (k.onReset d.own caller).1 }
    rw [h]
    rfl

end Device

namespace XfsManagerService

variable {κ : Type} (print : Number → String)

theorem idc_onReset (s : IdcState) (caller : κ) :
    ((idcClass κ).onReset s caller).1 = s ↔ AtRest (κ := κ) .idc s := by
  cases s with
  | mk currentCard cardHeld events =>
    simp [idcClass, AtRest, eq_comm]

theorem pin_onReset (pad : Pin.Pad κ) (caller : κ) :
    ((pinClass κ).onReset pad caller).1 = pad ↔ AtRest (κ := κ) .pin pad := by
  have hreset : ((pinClass κ).onReset pad caller).1 =
      { (pad.cancelEntry "device reset").1 with pinBuffer := [] } := rfl
  rw [hreset]
  constructor
  · intro h
    have hactive := congrArg Pin.Pad.active h
    have hbuffer := congrArg Pin.Pad.pinBuffer h
    refine ⟨?_, hbuffer.symm⟩
    cases hentry : pad.active with
    | none => rfl
    | some entry =>
      simp only [Pin.Pad.cancelEntry, hentry] at hactive
      cases hactive
  · intro h
    obtain ⟨hactive, hbuffer⟩ := h
    have hcancel : (pad.cancelEntry "device reset").1 = pad := by
      simp only [Pin.Pad.cancelEntry, hactive]
    rw [hcancel]
    show { pad with pinBuffer := [] } = pad
    rw [← hbuffer]

theorem cdm_onReset (s : CdmState) (caller : κ) :
    ((cdmClass κ print).onReset s caller).1 = s ↔ AtRest (κ := κ) .cdm s := by
  obtain ⟨⟨cashUnits, presentedCash, takeTimer, injectedError, events⟩, hinjected⟩ := s
  have hreset : ((cdmClass κ print).onReset
      ⟨⟨cashUnits, presentedCash, takeTimer, injectedError, events⟩, hinjected⟩ caller).1 =
        ⟨⟨cashUnits, none, false, none, events⟩, rfl⟩ := rfl
  have hclear : injectedError = none := hinjected
  rw [hreset]
  simp [AtRest, hclear, eq_comm]

theorem siu_onReset (s : SiuState) (caller : κ) :
    ((siuClass κ).onReset s caller).1 = s ↔ AtRest (κ := κ) .siu s := by
  cases s with
  | mk sensors indicators operatorMode eventsEnabled events =>
    simp [siuClass, SiuState.resetOwn, AtRest, eq_comm]

/-- RESET leaves a device's own state alone exactly at rest. -/
theorem onReset_eq_self (c : XfsServiceClass) (own : Own κ c) (caller : κ) :
    ((classOf κ print c).onReset own caller).1 = own ↔ AtRest c own := by
  cases c with
  | idc => exact idc_onReset own caller
  | pin => exact pin_onReset own caller
  | cdm => exact cdm_onReset print own caller
  | ptr => exact iff_of_true rfl trivial
  | siu => exact siu_onReset own caller

theorem execute_resetCode (m : XfsManagerService κ) (c : XfsServiceClass)
    (payload : (c : XfsServiceClass) → Payload c) (caller : κ) :
    (m.execute print (commandFor c (resetCode c) payload) caller).2 =
      Function.update m c
        ((m c).executeCommand (classOf κ print c) (classOf κ print c).resetCode (payload c)
          caller).2 := by
  rw [execute_device, resetCode_eq]

/-- The reset of the admin endpoint is the RESET command exactly if the device has nothing of
its own to clear; for the printer it always is. -/
theorem reset_eq_execute_iff (m : XfsManagerService κ) (c : XfsServiceClass)
    (payload : (c : XfsServiceClass) → Payload c) (caller : κ) :
    m.reset c = (m.execute print (commandFor c (resetCode c) payload) caller).2 ↔
      AtRest c (m c).own := by
  rw [execute_resetCode, ← onReset_eq_self print c (m c).own caller,
    ← Device.reset_eq_resetCommand (classOf κ print c) (m c) (payload c) caller]
  constructor
  · intro h
    have hdevice := congrFun h c
    simpa only [reset, Function.update_self] using hdevice
  · intro h
    rw [reset, h]

def insertCard (m : XfsManagerService κ) (card : VirtualCard) : XfsManagerService κ :=
  let d : Device IdcState := m .idc
  Function.update m .idc { d with own := (d.own.insertCard card).2 }

def testCard : VirtualCard :=
  ⟨"4580123456787234", "BUDI SANTOSO", "2812", "track 1", "track 2", "hash", none, "VISA"⟩

/-- The card stays in the reader when it is reset over the admin endpoint. -/
theorem card_survives_reset :
    let m := (boot : XfsManagerService Unit).insertCard testCard
    ¬ m.reset .idc =
      (m.execute (fun _ => "") (commandFor .idc "WFS_CMD_IDC_RESET" noPayload) ()).2 := by
  intro m h
  have hcard := congrArg (fun m : XfsManagerService Unit => (m .idc).own) h
  have hheld := congrArg IdcState.cardHeld hcard
  exact absurd hheld (by decide)

end XfsManagerService

end AtmXfs.Xfs
