import AtmXfs.Cdm.Request
import AtmXfs.Dll.Base64
import AtmXfs.Pin.Device
import AtmXfs.Ptr.Device
import AtmXfs.Xfs.Base

namespace AtmXfs.Xfs

open Js

structure VirtualCard where
  pan : String
  cardholderName : String
  expiryDate : String
  track1 : String
  track2 : String
  pinHash : String
  chipData : Option String
  issuer : String
  deriving DecidableEq

inductive IdcEvent where
  | mediaInserted (pan : String)
  | mediaRemoved (pan : Option String)
  | mediaRetained (pan : Option String)
  deriving DecidableEq

/-- The card reader's own state, with the events it has emitted. -/
structure IdcState where
  currentCard : Option VirtualCard
  cardHeld : Bool
  events : List IdcEvent
  deriving DecidableEq

inductive IdcResult where
  | done
  | track (track1 track2 pan cardholderName expiryDate : String) (chipData : Option String)
  | rawData (track1Raw track2Raw : Framing.Bytes)
  | chip (apdu status : String)
  deriving DecidableEq

namespace IdcState

def init : IdcState := ⟨none, false, []⟩

def insertCard (s : IdcState) (card : VirtualCard) : Except String Unit × IdcState :=
  if s.cardHeld then (.error "card already in reader", s)
  else (.ok (), ⟨some card, true, s.events ++ [.mediaInserted card.pan]⟩)

def readTrack (s : IdcState) : Except String IdcResult :=
  match s.currentCard with
  | none => .error "No card in reader"
  | some c => .ok (.track c.track1 c.track2 c.pan c.cardholderName c.expiryDate c.chipData)

def toBase64 (text : String) : Framing.Bytes := Dll.base64 text.toUTF8.toList

def readRawData (s : IdcState) : Except String IdcResult :=
  match s.currentCard with
  | none => .error "No card in reader"
  | some c => .ok (.rawData (toBase64 c.track1) (toBase64 c.track2))

/-- `ejectCard` and `retainCard`: the reader gives the card up and reports it. -/
def release (s : IdcState) (missing : String) (event : Option String → IdcEvent) :
    Except String IdcResult × IdcState :=
  if s.cardHeld then (.ok .done, ⟨none, false, s.events ++ [event (s.currentCard.map (·.pan))]⟩)
  else (.error missing, s)

def ejectCard (s : IdcState) : Except String IdcResult × IdcState :=
  s.release "No card to eject" .mediaRemoved

def retainCard (s : IdcState) : Except String IdcResult × IdcState :=
  s.release "No card to retain" .mediaRetained

def perform (s : IdcState) (commandCode : String) : Except String IdcResult × IdcState :=
  if commandCode = "WFS_CMD_IDC_READ_TRACK" then (s.readTrack, s)
  else if commandCode = "WFS_CMD_IDC_READ_RAW_DATA" then (s.readRawData, s)
  else if commandCode = "WFS_CMD_IDC_EJECT_CARD" then s.ejectCard
  else if commandCode = "WFS_CMD_IDC_RETAIN_CARD" then s.retainCard
  else if commandCode = "WFS_CMD_IDC_CHIP_IO" ∨ commandCode = "WFS_CMD_IDC_CHIP_POWER" then
    (.ok (.chip "9000" "success"), s)
  else (.error ("Unsupported IDC command: " ++ commandCode), s)

end IdcState

inductive SiuSensorId where
  | cabinetDoor | safeDoor | tamper | operatorSwitch
  deriving DecidableEq

inductive SiuSensorState where
  | closed | opened | tampered | unknown
  deriving DecidableEq

inductive SiuIndicatorId where
  | power | ready | fault | service
  deriving DecidableEq

inductive SiuIndicatorState where
  | off | on | blinking
  deriving DecidableEq

inductive SiuOperatorMode where
  | normal | supervisor | maintenance
  deriving DecidableEq

inductive SiuEvent where
  | portStatus (sensorId : SiuSensorId) (state previousState : SiuSensorState)
  | sensor (eventCode : String) (sensorId : SiuSensorId) (state previousState : SiuSensorState)
  | operatorSwitch (mode : SiuOperatorMode)
  deriving DecidableEq

/-- The own state of the sensors and indicators, with the events they have emitted. -/
structure SiuState where
  sensors : SiuSensorId → SiuSensorState
  indicators : SiuIndicatorId → SiuIndicatorState
  operatorMode : SiuOperatorMode
  eventsEnabled : Bool
  events : List SiuEvent

structure SiuSetIndicatorPayload where
  indicatorId : String
  state : String
  deriving DecidableEq

inductive SiuResult where
  | done
  | status (sensors : SiuSensorId → SiuSensorState) (indicators : SiuIndicatorId → SiuIndicatorState)
      (operatorMode : SiuOperatorMode)

def SiuIndicatorId.ofText (s : String) : Option SiuIndicatorId :=
  [("POWER", power), ("READY", ready), ("FAULT", fault), ("SERVICE", service)].lookup s

def SiuIndicatorState.ofText (s : String) : Option SiuIndicatorState :=
  [("OFF", off), ("ON", on), ("BLINKING", blinking)].lookup s

def specificEventForSensor : SiuSensorId → String
  | .cabinetDoor => "WFS_USRE_SIU_CABINET_STATUS"
  | .safeDoor => "WFS_USRE_SIU_SAFE_DOOR"
  | .tamper => "WFS_USRE_SIU_TAMPER_SENSOR"
  | .operatorSwitch => "WFS_USRE_SIU_OPERATOR_SWITCH"

namespace SiuState

def defaultSensors : SiuSensorId → SiuSensorState := fun _ => .closed

def defaultIndicators : SiuIndicatorId → SiuIndicatorState
  | .power => .on
  | .ready => .on
  | .fault => .off
  | .service => .off

def init : SiuState := ⟨defaultSensors, defaultIndicators, .normal, true, []⟩

def setSensor (s : SiuState) (sensorId : SiuSensorId) (state : SiuSensorState) : SiuState :=
  let previousState := s.sensors sensorId
  if previousState = state then s
  else
    { s with
      sensors := Function.update s.sensors sensorId state
      operatorMode :=
        if sensorId = .operatorSwitch then (if state = .opened then .supervisor else .normal)
        else s.operatorMode
      events :=
        if s.eventsEnabled then
          s.events ++ [.portStatus sensorId state previousState,
            .sensor (specificEventForSensor sensorId) sensorId state previousState]
        else s.events }

def setOperatorMode (s : SiuState) (mode : SiuOperatorMode) : SiuState :=
  { s with
    operatorMode := mode
    events := if s.eventsEnabled then s.events ++ [.operatorSwitch mode] else s.events }

def handleSetIndicator (s : SiuState) (payload : Option SiuSetIndicatorPayload) :
    Except String SiuResult × SiuState :=
  match payload with
  | none => (.error "Unknown indicator: undefined", s)
  | some p =>
    match SiuIndicatorId.ofText p.indicatorId with
    | none => (.error ("Unknown indicator: " ++ p.indicatorId), s)
    | some indicatorId =>
      match SiuIndicatorState.ofText p.state with
      | none => (.error ("Invalid indicator state: " ++ p.state), s)
      | some state =>
        (.ok .done, { s with indicators := Function.update s.indicators indicatorId state })

def perform (s : SiuState) (commandCode : String) (payload : Option SiuSetIndicatorPayload) :
    Except String SiuResult × SiuState :=
  if commandCode = "WFS_CMD_SIU_ENABLE_EVENTS" then (.ok .done, { s with eventsEnabled := true })
  else if commandCode = "WFS_CMD_SIU_DISABLE_EVENTS" then
    (.ok .done, { s with eventsEnabled := false })
  else if commandCode = "WFS_CMD_SIU_SET_INDICATOR" then s.handleSetIndicator payload
  else if commandCode = "WFS_CMD_SIU_GET_SENSOR_STATUS" then
    (.ok (.status s.sensors s.indicators s.operatorMode), s)
  else (.error ("Unsupported SIU command: " ++ commandCode), s)

/-- RESET puts the defaults back. -/
def resetOwn (s : SiuState) : SiuState :=
  ⟨defaultSensors, defaultIndicators, .normal, true, s.events⟩

end SiuState

/-- The dispenser's own state: the injected error is the base class's. -/
abbrev CdmState := { s : Cdm.CdmDeviceService // s.injectedError = none }

/-- The printer's own state. -/
abbrev PtrState := { s : Ptr.PtrDeviceService // s.injectedError = none }

theorem ptr_injectedError {s : Ptr.PtrDeviceService} (hs : s.injectedError = none)
    (now : Ptr.Instant) (c : Ptr.PtrCommand) :
    (Ptr.executeCommand s now c).2.injectedError = none := by
  rw [Ptr.executeCommand_none hs]
  cases c with
  | reset => exact hs
  | printForm payload =>
    rw [Ptr.perform, Ptr.printForm]
    split_ifs <;> exact hs
  | rawData data =>
    rw [Ptr.perform, Ptr.printRaw]
    split_ifs <;> exact hs
  | cutPaper => exact hs
  | other code => exact hs

end AtmXfs.Xfs
