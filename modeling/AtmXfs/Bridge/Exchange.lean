import AtmXfs.Dll.Lookup
import AtmXfs.Lib.Runs
import Mathlib.Logic.Function.Basic

namespace AtmXfs.Bridge

open Js JsonText Dll
open Framing (Bytes)

structure BridgeResponse where
  result : Int
  payloadJson : Bytes
  errorDetail : Bytes
  deriving DecidableEq

def BridgeResponse.sendFailed : BridgeResponse := ⟨-5, [], ascii "send failed"⟩

def BridgeResponse.timedOut : BridgeResponse := ⟨-6, [], ascii "response timeout"⟩

/-- `find_field`: the text of the first member of that name whose value is a string, up to the
next quote. -/
def findField (body : Bytes) (key : Bytes) : Bytes :=
  match afterFirst (ascii "\"" ++ key ++ ascii "\":\"") body with
  | none => []
  | some rest => if 0x22 ∈ rest then rest.takeWhile (· ≠ 0x22) else []

/-- The integer behind `"result":`, 0 where there is none. -/
def findResult (body : Bytes) : Int :=
  match afterFirst (ascii "\"result\":") body with
  | none => 0
  | some rest => Reader.atoll rest

def makeId (n : UInt64) : Bytes := ascii "REQ_" ++ decimalBytes n.toNat

/-- What `send_request` is called with. -/
structure RequestArgs where
  op : Bytes
  service : Bytes
  hService : Bytes
  commandCode : Bytes
  payloadJson : Bytes

def requestBody (id : Bytes) (args : RequestArgs) : Bytes :=
  ascii "\x7b\"type\":\"request\"," ++ (ascii "\"id\":\"" ++ (id ++ (ascii "\"," ++
    (ascii "\"ts\":\"\"," ++ (ascii "\"op\":\"" ++ (args.op ++ (ascii "\"," ++
      (ascii "\"service\":\"" ++ (args.service ++ (ascii "\"," ++
        (ascii "\"hService\":\"" ++ (args.hService ++ (ascii "\"," ++
          (ascii "\"commandCode\":\"" ++ (args.commandCode ++ (ascii "\"," ++
            (ascii "\"payload\":" ++
              ((if args.payloadJson = [] then ascii "\x7b\x7d" else args.payloadJson) ++
                ascii "\x7d"))))))))))))))))))

/-- A frame of the server, its type and id written first. -/
structure ServerFrame where
  type : PlainText
  id : PlainText
  rest : Bytes

def ServerFrame.body (f : ServerFrame) : Bytes :=
  0x7b :: (textMember typeName f.type ++ (idName.searched ++ (f.id.quoted ++ f.rest)))

/-- Where a `send_request` is. Between two of these places it holds a mutex for all that it does;
in `gaveUp` it holds that of its slot. -/
inductive CallPc where
  | unborn
  | toRegister
  | toSend
  | toWithdraw
  | waiting
  | gaveUp
  | returned
  deriving DecidableEq

/-- Where the reader is: `toMatch` with the n-th received frame, `toFill` with the call whose slot
it took from the table, `closing` with the slots that are left to wake. -/
inductive ReadPc where
  | stopped
  | reading
  | toMatch (n : Nat)
  | toFill (n k : Nat)
  | closing (rest : List Nat)
  deriving DecidableEq

/-- The slots that are left to wake. -/
def ReadPc.left : ReadPc → List Nat
  | .closing rest => rest
  | _ => []

/-- A call with its slot and what it returned. -/
structure Call where
  id : Bytes
  request : Bytes
  pc : CallPc
  done : Bool
  response : BridgeResponse
  result : Option BridgeResponse

def Call.start : Call := ⟨[], [], .unborn, false, ⟨0, [], []⟩, none⟩

/-- The client with its calls in the order in which they took an id; `received` and `deliveries`,
of the n-th frame to the k-th call, are kept for the statements only. -/
structure Exchange where
  nextId : UInt64
  count : Nat
  call : Nat → Call
  pending : List (Bytes × Nat)
  reader : ReadPc
  received : List ServerFrame
  deliveries : List (Nat × Nat)

namespace Exchange

def start : Exchange := ⟨1, 0, fun _ => .start, [], .stopped, [], []⟩

def setCall (s : Exchange) (k : Nat) (c : Call) : Exchange :=
  { s with call := Function.update s.call k c }

/-- `pending_mtx` is held by the reader while it wakes the slots that are left. -/
def tableHeld (s : Exchange) : Bool :=
  match s.reader with
  | .closing _ => true
  | _ => false

def emplace (s : Exchange) (k : Nat) : Exchange :=
  if s.pending.any fun e => e.1 = (s.call k).id then s
  else { s with pending := s.pending ++ [((s.call k).id, k)] }

def eraseId (s : Exchange) (id : Bytes) : Exchange :=
  { s with pending := s.pending.filter fun e => e.1 ≠ id }

def moveTo (s : Exchange) (k : Nat) (pc : CallPc) : Exchange :=
  s.setCall k { s.call k with pc := pc }

def finish (s : Exchange) (k : Nat) (resp : BridgeResponse) : Exchange :=
  s.setCall k { s.call k with pc := .returned, result := some resp }

/-- A new call takes its id. -/
def beginCall (s : Exchange) (args : RequestArgs) : Exchange :=
  let id := makeId s.nextId
  { s.setCall s.count
      { Call.start with id := id, request := requestBody id args, pc := .toRegister }
    with nextId := s.nextId + 1, count := s.count + 1 }

/-- The next step of a call. `flag` says of a send whether it succeeded, and of a waiting call
that its time is over. -/
def callerStep (s : Exchange) (k : Nat) (flag : Bool) : Option Exchange :=
  match (s.call k).pc with
  | .unborn => none
  | .toRegister => if s.tableHeld then none else some ((s.emplace k).moveTo k .toSend)
  | .toSend => some (s.moveTo k (if flag then .waiting else .toWithdraw))
  | .toWithdraw =>
    if s.tableHeld then none
    else some ((s.eraseId (s.call k).id).finish k .sendFailed)
  | .waiting =>
    if (s.call k).done then some (s.finish k (s.call k).response)
    else if flag then some (s.moveTo k .gaveUp)
    else none
  | .gaveUp =>
    if s.tableHeld then none
    else some ((s.eraseId (s.call k).id).finish k .timedOut)
  | .returned => none

/-- The reader has a whole frame; one that is too long ends its loop. -/
def receive (s : Exchange) (f : ServerFrame) : Exchange :=
  if f.body.length > 1000000 then { s with reader := .closing (s.pending.map Prod.snd) }
  else
    { s with
      received := s.received ++ [f]
      reader := if findField f.body (ascii "type") = ascii "response" then .toMatch s.received.length
        else .reading }

/-- The frame is handed to the call through its slot. -/
def fill (s : Exchange) (n k : Nat) (body : Bytes) : Exchange :=
  { s.setCall k
      { s.call k with
        response := { (s.call k).response with result := findResult body, payloadJson := body }
        done := true }
    with reader := .reading, deliveries := (n, k) :: s.deliveries }

def fail (s : Exchange) (k : Nat) : Exchange :=
  s.setCall k
    { s.call k with
      response :=
        { (s.call k).response with result := -5, errorDetail := ascii "bridge disconnected" }
      done := true }

def readerStep (s : Exchange) : Option Exchange :=
  match s.reader with
  | .toMatch n =>
    (s.received[n]?).map fun f =>
      let id := findField f.body (ascii "id")
      match s.pending.find? fun e => e.1 = id with
      | some e => { s.eraseId id with reader := .toFill n e.2 }
      | none => { s with reader := .reading }
  | .toFill n k =>
    if (s.call k).pc = .gaveUp then none
    else (s.received[n]?).map fun f => s.fill n k f.body
  | .closing [] => some { s with pending := [], reader := .stopped }
  | _ => none

inductive Action where
  | call (args : RequestArgs)
  | caller (k : Nat) (flag : Bool)
  | connect
  | receive (f : ServerFrame)
  | disconnect
  | reader
  /-- The loop over the slots left wakes this one next. -/
  | wake (k : Nat)

def step (s : Exchange) : Action → Option Exchange
  | .call args => some (s.beginCall args)
  | .caller k flag => s.callerStep k flag
  | .connect => if s.reader = .stopped then some { s with reader := .reading } else none
  | .receive f => if s.reader = .reading then some (s.receive f) else none
  | .disconnect =>
    if s.reader = .reading then some { s with reader := .closing (s.pending.map Prod.snd) }
    else none
  | .reader => s.readerStep
  | .wake k =>
    match s.reader with
    | .closing rest =>
      if k ∈ rest ∧ (s.call k).pc ≠ .gaveUp then
        some { s.fail k with reader := .closing (rest.erase k) }
      else none
    | _ => none

end Exchange

end AtmXfs.Bridge
