import AtmXfs.Dll.Lookup
import AtmXfs.Lib.Masks
import AtmXfs.Lib.Runs
import Mathlib.Logic.Function.Basic
import Mathlib.Data.List.Perm.Basic

namespace AtmXfs.Dll

open Js JsonText
open Framing (Bytes)

inductive EventClass where
  | srve | exee | syse | usre
  deriving DecidableEq

namespace EventClass

def bytes : EventClass → Bytes
  | srve => ascii "SRVE"
  | exee => ascii "EXEE"
  | syse => ascii "SYSE"
  | usre => ascii "USRE"

def message : EventClass → UInt32
  | exee => 0x20001
  | srve => 0x20002
  | usre => 0x20003
  | syse => 0x20004

def bit : EventClass → UInt32
  | srve => 1
  | usre => 2
  | syse => 4
  | exee => 8

theorem plain (c : EventClass) : ∀ b ∈ c.bytes, 0x20 ≤ b ∧ b < 0x80 ∧ b ≠ 0x22 ∧ b ≠ 0x5c := by
  cases c <;> decide

def text (c : EventClass) : PlainText := ⟨c.bytes, c.plain⟩

end EventClass

/-- `message_for_class`, 0 for a class that there is not. -/
def messageForClass (cls : Bytes) : UInt32 :=
  if cls = EventClass.srve.bytes then EventClass.srve.message
  else if cls = EventClass.exee.bytes then EventClass.exee.message
  else if cls = EventClass.syse.bytes then EventClass.syse.message
  else if cls = EventClass.usre.bytes then EventClass.usre.message
  else 0

def classMatches (subscribedMask msg : UInt32) : Bool :=
  if msg = EventClass.srve.message then subscribedMask &&& 1 ≠ 0
  else if msg = EventClass.usre.message then subscribedMask &&& 2 ≠ 0
  else if msg = EventClass.syse.message then subscribedMask &&& 4 ≠ 0
  else if msg = EventClass.exee.message then subscribedMask &&& 8 ≠ 0
  else true

/-- The tables of the router for handles `H` and windows `W`; a subscription is a window with its
event classes. -/
structure EventRouter (H W : Type) where
  subs : H → Option (Masks W)
  byLogical : Bytes → Option H

/-- A message posted to a window. -/
structure Post (W : Type) where
  hwnd : W
  msg : UInt32
  wParam : UInt32

variable {H W : Type} [DecidableEq H] [DecidableEq W]

namespace EventRouter

def new : EventRouter H W := ⟨fun _ => none, fun _ => none⟩

def registerWindow (r : EventRouter H W) (h : H) (logicalName : Bytes) (hwnd : W)
    (eventClasses : UInt32) : EventRouter H W where
  subs := Function.update r.subs h (some (((r.subs h).getD []).add hwnd eventClasses))
  byLogical :=
    if logicalName = [] then r.byLogical else Function.update r.byLogical logicalName (some h)

/-- A vector that has become empty is erased. -/
def deregisterWindow (r : EventRouter H W) (h : H) (hwnd : W) (eventClasses : UInt32) :
    EventRouter H W :=
  match r.subs h with
  | none => r
  | some vec =>
    let vec := if eventClasses = 0 then vec.drop hwnd else (vec.remove hwnd eventClasses).dropZero
    { r with subs := Function.update r.subs h (if vec.isEmpty then none else some vec) }

def clearService (r : EventRouter H W) (h : H) : EventRouter H W where
  subs := Function.update r.subs h none
  byLogical name := if r.byLogical name = some h then none else r.byLogical name

/-- The messages that an event frame is posted with. -/
def dispatch (r : EventRouter H W) (eventJson : Bytes) : List (Post W) :=
  let eventCode := Reader.getString eventJson (ascii "eventCode")
  let msg := messageForClass (Reader.getString eventJson (ascii "eventClass"))
  if Reader.getString eventJson (ascii "type") ≠ ascii "event" ∨ msg = 0 then []
  else
    match r.byLogical (Reader.getString eventJson (ascii "hService")) with
    | none => []
    | some h =>
      let codeHash := eventCode.foldl (fun hash c => hash * 31 + c.toUInt32) 0
      (((r.subs h).getD []).filter fun s => classMatches s.2 msg).map fun s => ⟨s.1, msg, codeHash⟩

end EventRouter

/-- What the windows are registered for and the handles are bound to, as the calls have it. -/
structure Registry (H W : Type) where
  registrations : Masks (H × W)
  bindings : List (H × Bytes)

namespace Registry

def new : Registry H W := ⟨[], []⟩

/-- A registration takes the place of the one before it. -/
def register (g : Registry H W) (h : H) (logicalName : Bytes) (hwnd : W) (eventClasses : UInt32) :
    Registry H W where
  registrations := g.registrations.set (h, hwnd) eventClasses
  bindings := if logicalName = [] then g.bindings else (h, logicalName) :: g.bindings

def deregister (g : Registry H W) (h : H) (hwnd : W) (eventClasses : UInt32) : Registry H W :=
  { g with
    registrations :=
      if eventClasses = 0 then g.registrations.drop (h, hwnd)
      else g.registrations.remove (h, hwnd) eventClasses }

def close (g : Registry H W) (h : H) : Registry H W where
  registrations := g.registrations.keep fun key => key.1 ≠ h
  bindings := g.bindings.filter fun b => b.1 ≠ h

/-- The registrations that an event of the class for the logical service is meant for. -/
def due (g : Registry H W) (logicalName : Bytes) (cls : EventClass) : Masks (H × W) :=
  g.registrations.filter fun e => (e.1.1, logicalName) ∈ g.bindings ∧ e.2 &&& cls.bit ≠ 0

end Registry

inductive RouterOp (H W : Type) where
  | register (h : H) (logicalName : Bytes) (hwnd : W) (eventClasses : UInt32)
  | deregister (h : H) (hwnd : W) (eventClasses : UInt32)
  | clear (h : H)

/-- The router beside what it should know. -/
structure Routing (H W : Type) where
  router : EventRouter H W
  registry : Registry H W

namespace Routing

def new : Routing H W := ⟨.new, .new⟩

def step (s : Routing H W) : RouterOp H W → Option (Routing H W)
  | .register h name hwnd classes =>
    some ⟨s.router.registerWindow h name hwnd classes, s.registry.register h name hwnd classes⟩
  | .deregister h hwnd classes =>
    some ⟨s.router.deregisterWindow h hwnd classes, s.registry.deregister h hwnd classes⟩
  | .clear h => some ⟨s.router.clearService h, s.registry.close h⟩

end Routing

def serviceName : FieldName := ⟨ascii "service", by decide, by decide⟩

def hServiceName : FieldName := ⟨ascii "hService", by decide, by decide⟩

def eventCodeName : FieldName := ⟨ascii "eventCode", by decide, by decide⟩

def eventClassName : FieldName := ⟨ascii "eventClass", by decide, by decide⟩

def event : PlainText := ⟨ascii "event", by decide⟩

/-- An event as the bridge broadcasts it. -/
structure EventFrame where
  id : PlainText
  ts : PlainText
  service : PlainText
  hService : PlainText
  eventCode : PlainText
  eventClass : EventClass
  payload : Bytes

namespace EventFrame

def body (f : EventFrame) : Bytes :=
  frameHead event f.id f.ts ++ (textMember serviceName f.service ++
    (textMember hServiceName f.hService ++ (textMember eventCodeName f.eventCode ++
      (textMember eventClassName f.eventClass.text ++
        (payloadName.searched ++ (f.payload ++ ascii "\x7d"))))))

theorem getString_hService (f : EventFrame) :
    Reader.getString f.body (ascii "hService") = f.hService.bytes := by
  apply getString_found (n := hServiceName)
  rw [body, afterFirst_frameHead (by decide) (by decide) (by decide),
    afterFirst_textMember (by decide), afterFirst_textMember_found]

theorem getString_eventClass (f : EventFrame) :
    Reader.getString f.body (ascii "eventClass") = f.eventClass.bytes := by
  apply getString_found (n := eventClassName) (t := f.eventClass.text)
  rw [body, afterFirst_frameHead (by decide) (by decide) (by decide),
    afterFirst_textMember (by decide), afterFirst_textMember (by decide),
    afterFirst_textMember (by decide), afterFirst_textMember_found]

end EventFrame

end AtmXfs.Dll
