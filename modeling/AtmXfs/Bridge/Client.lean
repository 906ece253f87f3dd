import AtmXfs.Lib.Locks
import AtmXfs.Lib.Runs

namespace AtmXfs.Bridge

open Runs

/-- `slot k` is the mutex of the slot of the k-th request. -/
inductive Mutex where
  | write
  | pending
  | slot (k : Nat)
  deriving DecidableEq

/-- The thread that is in the k-th `send_request`, and the reader thread. -/
inductive Agent where
  | caller (k : Nat)
  | reader
  deriving DecidableEq

/-- Where the k-th `send_request` is. -/
inductive CallerPc where
  | unborn
  /-- To insert its slot. -/
  | toRegister
  | registering
  /-- `send_all`. -/
  | toSend
  | sending
  /-- After a failed send. -/
  | toWithdraw
  | withdrawing
  /-- `wait_for`: the slot's mutex is taken, the predicate read, the mutex given back to sleep. -/
  | toWait
  | checking (timedOut : Bool)
  | asleep
  | awake (timedOut : Bool)
  /-- `!got`: with the slot's mutex, to erase its slot. -/
  | gaveUp
  | erasing
  | leaving
  | returned
  deriving DecidableEq

/-- Where the reader thread is. -/
inductive ReaderPc where
  | stopped
  | reading
  /-- A response for a request. -/
  | toMatch (k : Nat)
  | matching (k : Nat)
  | toFill (k : Nat)
  | filling (k : Nat)
  /-- The socket is closed: to wake the slots left. -/
  | toClose
  | closing (rest : List Nat)
  | toFail (k : Nat) (rest : List Nat)
  | failing (k : Nat) (rest : List Nat)
  deriving DecidableEq

structure Client where
  owner : Mutex → Option Agent
  caller : Nat → CallerPc
  reader : ReaderPc
  pending : List Nat
  done : Nat → Bool
  nextId : Nat

def Client.start : Client := ⟨fun _ => none, fun _ => .unborn, .stopped, [], fun _ => false, 0⟩

namespace Client

variable (s : Client)

def lock (a : Agent) (m : Mutex) : Option Client :=
  (Locks.lock s.owner a m).map fun owner => { s with owner := owner }

def unlock (m : Mutex) : Client := { s with owner := Locks.unlock s.owner m }

def moveTo (k : Nat) (pc : CallerPc) : Client :=
  { s with caller := Function.update s.caller k pc }

def readerTo (pc : ReaderPc) : Client := { s with reader := pc }

/-- The next step of a call. `flag` says of a send whether it succeeded, and of a waking whether
by timeout; a condition variable may also wake by itself. -/
def callerStep (k : Nat) (flag : Bool) : Option Client :=
  match s.caller k with
  | .unborn => none
  | .toRegister => (s.lock (.caller k) .pending).map fun s => s.moveTo k .registering
  | .registering =>
    some (({ s with pending := s.pending ++ [k] }.unlock .pending).moveTo k .toSend)
  | .toSend => (s.lock (.caller k) .write).map fun s => s.moveTo k .sending
  | .sending => some ((s.unlock .write).moveTo k (if flag then .toWait else .toWithdraw))
  | .toWithdraw => (s.lock (.caller k) .pending).map fun s => s.moveTo k .withdrawing
  | .withdrawing =>
    some (({ s with pending := s.pending.erase k }.unlock .pending).moveTo k .returned)
  | .toWait => (s.lock (.caller k) (.slot k)).map fun s => s.moveTo k (.checking false)
  | .checking timedOut =>
    if s.done k then some ((s.unlock (.slot k)).moveTo k .returned)
    else if timedOut then some (s.moveTo k .gaveUp)
    else some ((s.unlock (.slot k)).moveTo k .asleep)
  | .asleep => some (s.moveTo k (.awake flag))
  | .awake timedOut => (s.lock (.caller k) (.slot k)).map fun s => s.moveTo k (.checking timedOut)
  | .gaveUp => (s.lock (.caller k) .pending).map fun s => s.moveTo k .erasing
  | .erasing =>
    some (({ s with pending := s.pending.erase k }.unlock .pending).moveTo k .leaving)
  | .leaving => some ((s.unlock (.slot k)).moveTo k .returned)
  | .returned => none

def readerStep : Option Client :=
  match s.reader with
  | .toMatch k => (s.lock .reader .pending).map fun s => s.readerTo (.matching k)
  | .matching k =>
    if k ∈ s.pending then
      some (({ s with pending := s.pending.erase k }.unlock .pending).readerTo (.toFill k))
    else some ((s.unlock .pending).readerTo .reading)
  | .toFill k => (s.lock .reader (.slot k)).map fun s => s.readerTo (.filling k)
  | .filling k =>
    some (({ s with done := Function.update s.done k true }.unlock (.slot k)).readerTo .reading)
  | .toClose => (s.lock .reader .pending).map fun s => s.readerTo (.closing s.pending)
  | .closing [] => some (({ s with pending := [] }.unlock .pending).readerTo .stopped)
  | .toFail k rest => (s.lock .reader (.slot k)).map fun s => s.readerTo (.failing k rest)
  | .failing k rest =>
    some (({ s with done := Function.update s.done k true }.unlock (.slot k)).readerTo
      (.closing rest))
  | _ => none

end Client

inductive Action where
  | call
  | caller (k : Nat) (flag : Bool)
  | connect
  | receive (k : Nat)
  | disconnect
  | reader
  /-- The loop over the slots left comes to this one next. -/
  | turnTo (k : Nat)
  deriving DecidableEq

def clientStep (s : Client) : Action → Option Client
  | .call => some { s.moveTo s.nextId .toRegister with nextId := s.nextId + 1 }
  | .caller k flag => s.callerStep k flag
  | .connect => if s.reader = .stopped then some (s.readerTo .reading) else none
  | .receive k => if s.reader = .reading then some (s.readerTo (.toMatch k)) else none
  | .disconnect => if s.reader = .reading then some (s.readerTo .toClose) else none
  | .reader => s.readerStep
  | .turnTo k =>
    match s.reader with
    | .closing rest => if k ∈ rest then some (s.readerTo (.toFail k (rest.erase k))) else none
    | _ => none

/-- The mutexes that a call holds, and the one it waits for. -/
def CallerPc.holds (k : Nat) : CallerPc → List Mutex
  | registering => [.pending]
  | sending => [.write]
  | withdrawing => [.pending]
  | checking _ => [.slot k]
  | gaveUp => [.slot k]
  | erasing => [.pending, .slot k]
  | leaving => [.slot k]
  | _ => []

def CallerPc.wants (k : Nat) : CallerPc → Option Mutex
  | toRegister => some .pending
  | toSend => some .write
  | toWithdraw => some .pending
  | toWait => some (.slot k)
  | awake _ => some (.slot k)
  | gaveUp => some .pending
  | _ => none

def ReaderPc.holds : ReaderPc → List Mutex
  | matching _ => [.pending]
  | filling k => [.slot k]
  | closing _ => [.pending]
  | toFail _ _ => [.pending]
  | failing k _ => [.slot k, .pending]
  | _ => []

def ReaderPc.wants : ReaderPc → Option Mutex
  | toMatch _ => some .pending
  | toFill k => some (.slot k)
  | toClose => some .pending
  | toFail k _ => some (.slot k)
  | _ => none

/-- The reader is in the loop that wakes the slots left. -/
def ReaderPc.failsAll : ReaderPc → Bool
  | closing _ => true
  | toFail _ _ => true
  | failing _ _ => true
  | _ => false

def Client.holds (s : Client) : Agent → List Mutex
  | .caller k => (s.caller k).holds k
  | .reader => s.reader.holds

def Client.wants (s : Client) : Agent → Option Mutex
  | .caller k => (s.caller k).wants k
  | .reader => s.reader.wants

def Client.Deadlocked (s : Client) : Prop := Locks.Deadlocked s.owner s.wants

end AtmXfs.Bridge
