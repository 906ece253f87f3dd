import AtmXfs.Lib.Runs
import AtmXfs.Emv.Tlv
import AtmXfs.Emv.TlvElement
import AtmXfs.Emv.TlvTiling
import AtmXfs.Lib.JsNumber
import AtmXfs.Lib.JsArithmetic
import AtmXfs.Xfs.Base
import AtmXfs.Cdm.Device
import AtmXfs.Cdm.Cassettes
import AtmXfs.Lib.Change
import AtmXfs.Cdm.Greedy
import AtmXfs.Cdm.Mix
import AtmXfs.Cdm.MinNotes
import AtmXfs.Cdm.Exactness
import AtmXfs.Cdm.Bundles
import AtmXfs.Host.Emulator
import AtmXfs.Host.Ledger
import AtmXfs.Host.Reversal
import AtmXfs.Host.ReadCommitted
import AtmXfs.Host.DailyLimit
import AtmXfs.Host.Transport
import AtmXfs.Pin.Device
import AtmXfs.Atm.Session
import AtmXfs.Atm.Steady
import AtmXfs.Atm.Calm
import AtmXfs.Atm.Settlement
import AtmXfs.Atm.PinGate
import AtmXfs.Atm.Free
import AtmXfs.Atm.Watchdog
import AtmXfs.Atm.SessionEnd
import AtmXfs.Atm.StateOrder
import AtmXfs.Atm.CardHeld
import AtmXfs.Atm.Ownership
import AtmXfs.Atm.Attended
import AtmXfs.Pin.Release
import AtmXfs.Atm.PinRelease
import AtmXfs.Host.Cards
import AtmXfs.Atm.PinTries
import AtmXfs.Host.Eligibility
import AtmXfs.Lib.JsString
import AtmXfs.Iso8583.Bitmap
import AtmXfs.Iso8583.Codec
import AtmXfs.Iso8583.Acceptance
import AtmXfs.Emv.Apdu
import AtmXfs.Iso8583.Encodable
import AtmXfs.Emv.TlvEncode
import AtmXfs.Emv.Simulator
import AtmXfs.Emv.Handlers
import AtmXfs.Emv.ChipSession
import AtmXfs.Macro.Recorder
import AtmXfs.Macro.Runner
import AtmXfs.Macro.Replay
import AtmXfs.Macro.Vocabulary
import AtmXfs.Lib.Framing
import AtmXfs.Bridge.Frames
import AtmXfs.Host.Pipeline
import AtmXfs.Lib.Json
import AtmXfs.Bridge.HandleFrame
import AtmXfs.Bridge.Serving
import AtmXfs.Lib.Locks
import AtmXfs.Bridge.Client
import AtmXfs.Bridge.Deadlock
import AtmXfs.Macro.Report
import AtmXfs.Suite.Repeatables
import AtmXfs.Suite.Serial
import AtmXfs.Lib.JsonText
import AtmXfs.Lib.JsonReads
import AtmXfs.Dll.MiniJson
import AtmXfs.Dll.Codec
import AtmXfs.Dll.Payload
import AtmXfs.Dll.PrintForm
import AtmXfs.Cdm.Request
import AtmXfs.Dll.CustomMix
import AtmXfs.Ptr.Device
import AtmXfs.Dll.RawData
import AtmXfs.Dll.Lookup
import AtmXfs.Pin.Entry
import AtmXfs.Dll.PinEntry
import AtmXfs.Lib.Masks
import AtmXfs.Dll.EventRouter
import AtmXfs.Dll.Routing
import AtmXfs.Bridge.Exchange
import AtmXfs.Bridge.Correlation
import AtmXfs.Lib.TwoRuns
import AtmXfs.Macro.Stack
import AtmXfs.Macro.Live
import AtmXfs.Macro.Steps
import AtmXfs.Macro.Leftovers
import AtmXfs.Macro.Respect
import AtmXfs.Macro.TwoStacks
import AtmXfs.Suite.CleanSlate
import AtmXfs.Host.Listeners
import AtmXfs.Host.Toggle
import AtmXfs.Host.Manager
import AtmXfs.Macro.Recordings
import AtmXfs.Lib.Base64
import AtmXfs.Dll.Base64
import AtmXfs.Xfs.Devices
import AtmXfs.Xfs.Manager
import AtmXfs.Xfs.Reset
import AtmXfs.Atm.PinFailure
import AtmXfs.Cdm.Fewest
import AtmXfs.Cdm.Spendable
import AtmXfs.Cdm.Bounds
import AtmXfs.Host.Sequential
import AtmXfs.Cdm.Statuses
import AtmXfs.Cdm.Totals
import AtmXfs.Cdm.Trail
import AtmXfs.Pin.Promises
import AtmXfs.Pin.Keys
import AtmXfs.Pin.PinBlock
import AtmXfs.Emv.HexText
import AtmXfs.Dll.Members
import AtmXfs.Host.Ports
import AtmXfs.Dll.IniConfig
import AtmXfs.Dll.IniFile
import AtmXfs.Lib.Observers
import AtmXfs.Pin.Overheard
import AtmXfs.Pin.Masked
import AtmXfs.Xfs.Telemetry
import AtmXfs.Ptr.Journal
import AtmXfs.Lib.JsonLocal
import AtmXfs.Bridge.Request
import AtmXfs.Dll.Provider
import AtmXfs.Bridge.Broadcast
import AtmXfs.Atm.Console
import AtmXfs.Reports.Executive
import AtmXfs.Host.Interleaved
import AtmXfs.Host.Replies
import AtmXfs.Host.CardPin
import AtmXfs.Lib.Blocks
import AtmXfs.Codegen.Contract
import AtmXfs.Codegen.Lockstep
import AtmXfs.Suite.Requests
import AtmXfs.Host.Answers
import AtmXfs.Macro.Editor
import AtmXfs.Bridge.Completion
import AtmXfs.Macro.PinCalls
