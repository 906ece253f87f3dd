import AtmXfs.Lib.Json
import AtmXfs.Lib.Runs

namespace AtmXfs.Bridge

open Js Runs

/-- A registered device service: what `listServices` and `getInfo` say about it. -/
structure Service where
  hService : Text
  serviceClass : Text
  info : Json

/-- A frame to the client, without its time; `none` stands for a member that is not written. -/
inductive Reply where
  | pong (id : Option Json)
  | response (id : Option Json) (result : Int) (payload : Option Json) (errorDetail : Option Text)

/-- What the client reads from the text that `sendFrame` writes. -/
def Reply.sent : Reply → Reply
  | pong id => pong (id.map Json.wire)
  | response id result payload errorDetail =>
    response (id.map Json.wire) result (payload.map Json.wire) errorDetail

/-- How the call of `manager.execute` ends. -/
inductive Outcome where
  | returned (result : Int) (payload : Option Json) (errorDetail : Option Text)
  /-- The payload is refused by `JSON.stringify` with this message. -/
  | unwritable (message : Text)
  /-- The message of the error; `none` where `String(err)` itself throws. -/
  | thrown (message : Option Text)

/-- How far `handleFrame` gets by itself: to its end, to the call of `manager.execute` for a
request, or to an exception outside its `try`. -/
inductive Begun where
  | settled (replies : List Reply)
  | executing (id : Option Json)
  | rejected

/-- The response of the `catch` block. -/
def caught (id : Option Json) (message : Text) : Reply :=
  .response id (-5) (some .null) (some message)

section

variable (numberText : Number → Text)

/-- A property in a template literal. -/
def templateText (v : Option Json) : Option Text :=
  v.elim (some (utf16 "undefined")) (Json.toText numberText)

/-- A response whose error detail ends with a property; the TypeError of the literal is caught. -/
def refuse (id : Option Json) (result : Int) (prefixed : Text) (v : Option Json) : Reply :=
  match templateText numberText v with
  | some text => .response id result (some .null) (some (prefixed ++ text))
  | none => caught id (utf16 "Cannot convert object to primitive value")

def handleRequest (services : List Service) (frame : Json) : Begun :=
  let op := frame.get (utf16 "op")
  let id := frame.get (utf16 "id")
  let service := frame.get (utf16 "service")
  if Json.isText op (utf16 "WFPOpen") then
    match services.filter fun s => Json.isText service s.serviceClass with
    | [] => .settled [refuse numberText id (-9) (utf16 "no service of class ") service]
    | s :: _ =>
      .settled [.response id 0 (some (.obj [(utf16 "hService", .str s.hService)])) none]
  else if Json.isText op (utf16 "WFPGetInfo") then
    match services.find? fun s => Json.isText (frame.get (utf16 "hService")) s.hService with
    | none => .settled [.response id (-4) (some .null) (some (utf16 "unknown hService"))]
    | some s => .settled [.response id 0 (some s.info) none]
  else if Json.isText op (utf16 "WFPExecute") then .executing id
  else if Json.isText op (utf16 "WFPClose") then
    .settled [.response id 0 (some (.obj [(utf16 "closed", .bool true)])) none]
  else .settled [refuse numberText id (-8) (utf16 "unknown op: ") op]

/-- `handleFrame` on a body: `none` is a text that `JSON.parse` refuses. -/
def handleFrame (services : List Service) : Option Json → Begun
  | none => .settled []
  -- a property of null is read
  | some .null => .rejected
  | some frame =>
    let type := frame.get (utf16 "type")
    if Json.isText type (utf16 "ping") then .settled [.pong (frame.get (utf16 "id"))]
    else if Json.isText type (utf16 "request") then handleRequest numberText services frame
    else
      -- the warning writes the type
      match templateText numberText type with
      | some _ => .settled []
      | none => .rejected

end

/-- `handleFrame` after the call of `manager.execute`; `none` where it rejects. -/
def finishFrame (id : Option Json) : Outcome → Option Reply
  | .returned result payload errorDetail => some (.response id result payload errorDetail)
  | .unwritable message => some (caught id message)
  | .thrown (some message) => some (caught id message)
  | .thrown none => none

/-- One connection: the bodies handed over, the requests in `manager.execute`, the frames written
and the promises rejected, each with the place of its body. -/
structure BridgeConnection where
  frames : List (Option Json)
  executing : List (Nat × Option Json)
  replies : List (Nat × Reply)
  rejected : List Nat
  stopped : Bool

def BridgeConnection.start : BridgeConnection := ⟨[], [], [], [], false⟩

/-- An unhandled rejection ends the process, when the frames of its chunk have been handled. -/
inductive BridgeEvent where
  | frame (services : List Service) (body : Option Json)
  | executed (k : Nat) (outcome : Outcome)
  | exit

def bridgeStep (numberText : Number → Text) (c : BridgeConnection) :
    BridgeEvent → Option BridgeConnection
  | .frame services body =>
    if c.stopped then none
    else
      let k := c.frames.length
      let c := { c with frames := c.frames ++ [body] }
      match handleFrame numberText services body with
      | .settled replies =>
        some { c with replies := c.replies ++ replies.map fun r => (k, r.sent) }
      | .executing id => some { c with executing := c.executing ++ [(k, id)] }
      | .rejected => some { c with rejected := c.rejected ++ [k] }
  | .executed k outcome =>
    if c.stopped then none
    else
      (c.executing.lookup k).map fun id =>
        let c := { c with executing := c.executing.filter (·.1 ≠ k) }
        match finishFrame id outcome with
        | some r => { c with replies := c.replies ++ [(k, r.sent)] }
        | none => { c with rejected := c.rejected ++ [k] }
  | .exit => if c.rejected = [] then none else some { c with stopped := true }

inductive FrameKind where
  | request (id : Option Json)
  | ping (id : Option Json)
  | other

/-- What a body is: a request or a ping is a JSON object that says so. -/
def kindOf : Option Json → FrameKind
  | some (.obj members) =>
    let type := (Json.obj members).get (utf16 "type")
    let id := (Json.obj members).get (utf16 "id")
    if Json.isText type (utf16 "ping") then .ping id
    else if Json.isText type (utf16 "request") then .request id
    else .other
  | _ => .other

/-- The frames written for the k-th body. -/
def repliesTo (replies : List (Nat × Reply)) (k : Nat) : List Reply :=
  (replies.filter (·.1 = k)).map (·.2)

/-- A body has the answer that its kind asks for; a request has it once its command is executed. -/
def Answered (replies : List Reply) (executing : Prop) : FrameKind → Prop
  | .request id =>
    (executing ∧ replies = []) ∨
      (¬executing ∧ ∃ result payload errorDetail,
        replies = [.response id result payload errorDetail])
  | .ping id => replies = [.pong id]
  | .other => replies = []

/-- No promise was rejected, the server runs, and every body has its answer. -/
structure Served (c : BridgeConnection) : Prop where
  running : c.stopped = false
  settled : c.rejected = []
  answered : ∀ k body, c.frames[k]? = some body →
    Answered (repliesTo c.replies k) (k ∈ c.executing.map (·.1)) (kindOf body)

/-- A body on which `handleFrame` neither rejects nor alters the id. -/
def Harmless : Option Json → Bool
  | none => true
  | some frame =>
    !frame.isNull && match kindOf (some frame) with
    | .ping id => id.all Json.finite
    | .request id => Json.isText (frame.get (utf16 "op")) (utf16 "WFPExecute") || id.all Json.finite
    | .other => (frame.get (utf16 "type")).all Json.hasText

/-- `String(err)` works on what was thrown. -/
def Outcome.hasMessage : Outcome → Bool
  | thrown none => false
  | _ => true

/-- A harmless body, or the end of a command whose id is written as it was read. -/
def Proper (c : BridgeConnection) : BridgeEvent → Prop
  | .frame _ body => Harmless body = true
  | .executed k outcome =>
    outcome.hasMessage = true ∧ ∀ id, c.executing.lookup k = some id → id.all Json.finite = true
  | .exit => False

theorem map_wire_eq_self_iff (id : Option Json) :
    id.map Json.wire = id ↔ id.all Json.finite = true := by
  cases id with
  | none => simp
  | some v => simp [Json.wire_eq_self_iff]

theorem templateText_isSome (numberText : Number → Text) (v : Option Json) :
    (templateText numberText v).isSome = v.all Json.hasText := by
  cases v with
  | none => rfl
  | some v => exact Json.toText_isSome numberText v

/-- `handleFrame` on one body, against the answer that the body asks for. -/
def BegunProper (begun : Begun) (kind : FrameKind) : Prop :=
  match begun with
  | .settled replies => Answered (replies.map Reply.sent) False kind
  | .executing id => kind = .request id
  | .rejected => False

theorem answered_request {id : Option Json} {result : Int} {payload : Option Json}
    {errorDetail : Option Text} :
    Answered ([Reply.response id result payload errorDetail].map Reply.sent) False (.request id) ↔
      id.all Json.finite = true := by
  simp [Answered, Reply.sent, map_wire_eq_self_iff]

theorem refuse_answers (numberText : Number → Text) (id : Option Json) (result : Int)
    (prefixed : Text) (v : Option Json) :
    BegunProper (.settled [refuse numberText id result prefixed v]) (.request id) ↔
      id.all Json.finite = true := by
  unfold refuse
  split
  · exact answered_request
  · exact answered_request

/-- Every request that is not an execution is answered at once. -/
theorem handleRequest_answers (numberText : Number → Text) (services : List Service)
    (frame : Json) :
    BegunProper (handleRequest numberText services frame) (.request (frame.get (utf16 "id"))) ↔
      Json.isText (frame.get (utf16 "op")) (utf16 "WFPExecute") = true ∨
        (frame.get (utf16 "id")).all Json.finite = true := by
  by_cases hexecute : Json.isText (frame.get (utf16 "op")) (utf16 "WFPExecute") = true
  · have hopen : ¬Json.isText (frame.get (utf16 "op")) (utf16 "WFPOpen") = true :=
      fun h => absurd (Json.isText_unique hexecute h) (by decide)
    have hinfo : ¬Json.isText (frame.get (utf16 "op")) (utf16 "WFPGetInfo") = true :=
      fun h => absurd (Json.isText_unique hexecute h) (by decide)
    simp only [handleRequest]
    rw [if_neg hopen, if_neg hinfo, if_pos hexecute]
    exact iff_of_true rfl (.inl hexecute)
  · rw [or_iff_right hexecute]
    simp only [handleRequest]
    rw [if_neg hexecute]
    split_ifs
    · split
      · exact refuse_answers ..
      · exact answered_request
    · split
      · exact answered_request
      · exact answered_request
    · exact answered_request
    · exact refuse_answers ..

/-- An object that is neither a ping nor a request is ignored if its type can be written. -/
theorem ignored_proper (numberText : Number → Text) (type : Option Json) :
    BegunProper (match templateText numberText type with
      | some _ => .settled []
      | none => .rejected) .other ↔ type.all Json.hasText = true := by
  rw [← templateText_isSome numberText type]
  cases templateText numberText type with
  | none => exact iff_of_false id (by simp)
  | some text => exact iff_of_true rfl rfl

/-- `handleFrame` on any body: it does what the body asks for exactly if the body is harmless. -/
theorem handleFrame_proper (numberText : Number → Text) (services : List Service)
    (body : Option Json) :
    BegunProper (handleFrame numberText services body) (kindOf body) ↔ Harmless body = true := by
  cases body with
  | none => exact iff_of_true rfl rfl
  | some frame =>
    cases frame with
    | null => exact iff_of_false id (by simp [Harmless, Json.isNull])
    | bool b => exact iff_of_true rfl rfl
    | num n => exact iff_of_true rfl rfl
    | str s => exact iff_of_true rfl rfl
    | arr items => exact iff_of_true rfl rfl
    | obj members =>
      simp only [handleFrame, kindOf, Harmless, Json.isNull, Bool.not_false, Bool.true_and]
      split_ifs with hping hrequest
      · simp [BegunProper, Answered, Reply.sent, map_wire_eq_self_iff]
      · rw [Bool.or_eq_true]
        exact handleRequest_answers numberText services (.obj members)
      · exact ignored_proper numberText _

theorem handleRequest_executing {numberText : Number → Text} {services : List Service}
    {frame : Json} {id : Option Json}
    (h : handleRequest numberText services frame = .executing id) :
    frame.get (utf16 "id") = id := by
  simp only [handleRequest] at h
  split_ifs at h
  · split at h <;> cases h
  · split at h <;> cases h
  · exact Begun.executing.inj h

/-- Only a request is executed, and under its id. -/
theorem handleFrame_executing {numberText : Number → Text} {services : List Service}
    {body : Option Json} {id : Option Json}
    (h : handleFrame numberText services body = .executing id) : kindOf body = .request id := by
  cases body with
  | none => cases h
  | some frame =>
    cases frame with
    | null => cases h
    | bool b => cases h
    | num n => cases h
    | str s => cases h
    | arr items => cases h
    | obj members =>
      simp only [handleFrame] at h
      simp only [kindOf]
      split_ifs at h with hping hrequest
      · rw [if_neg hping, if_pos hrequest, handleRequest_executing h]
      · split at h <;> cases h

end AtmXfs.Bridge
