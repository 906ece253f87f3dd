import AtmXfs.Bridge.Frames
import AtmXfs.Host.Transport
import AtmXfs.Lib.JsString
import AtmXfs.Lib.Runs

namespace AtmXfs.Host

open Js Runs

/-- The requests for which `dispatch` awaits a call of the host. -/
def callsHost (mti : String) : Bool := mti = "0100" ∨ mti = "0200"

/-- How a host call ends. -/
inductive CallEnd where
  | authenticated (r : AuthResult)
  | authorized (r : AuthorizationResult)
  | thrown (message : String)
  deriving DecidableEq

def CallEnd.threw : CallEnd → Bool
  | thrown _ => true
  | _ => false

/-- The answers of `dispatch` without a host call. -/
def immediateReply (profile : IsoSwitchProfile) (mti : String) : IsoReply :=
  if mti = "0400" then ⟨"0410", [("39", "00"), ("switch", profile.id.text)]⟩
  else if mti = "0800" then
    ⟨"0810", [("39", "00"), ("switch", profile.id.text), ("alive", "true")]⟩
  else ⟨"0810", [("39", "12"), ("reason", "unsupported MTI " ++ mti)]⟩

/-- The answer after a host call; `none` where another call was made. -/
def calledReply (profile : IsoSwitchProfile) (mti : String) : CallEnd → Option IsoReply
  | .authenticated r =>
    if mti = "0100" then some ⟨"0110", [("39", r.responseCode), ("switch", profile.id.text)]⟩
    else none
  | .authorized r =>
    if mti = "0200" then
      some ⟨"0210", [("39", r.responseCode), ("stan", r.stanNo), ("auth", r.authCode.getD ""),
        ("switch", profile.id.text)]⟩
    else none
  | .thrown message =>
    if callsHost mti then some ⟨"0810", [("39", "96"), ("reason", message)]⟩ else none

/-- `Buffer.from(response, 'ascii')`. -/
def asciiBytes (s : String) : List UInt8 := (utf16 s).map fun u => u.toUInt8

/-- One connection: the requests received on it, those whose host call is under way, and the
responses written, each with the place of its request. -/
structure IsoConnection where
  requests : List String
  waiting : List (Nat × String)
  responses : List (Nat × IsoReply)
  deriving DecidableEq

namespace IsoConnection

def start : IsoConnection := ⟨[], [], []⟩

/-- A response is written unless its length does not fit the header. -/
def write (c : IsoConnection) (k : Nat) (reply : IsoReply) : IsoConnection :=
  match Bridge.isoFrame (asciiBytes reply.text) with
  | some _ => { c with responses := c.responses ++ [(k, reply)] }
  | none => c

end IsoConnection

/-- What happens on a connection: a frame is complete, or a host call ends. The answers without a
host call come right after the chunk of their frame and in the order of the frames, before any
call can end. -/
inductive PipelineEvent where
  | frame (body : String)
  | callEnded (k : Nat) (result : CallEnd)
  deriving DecidableEq

def pipelineStep (switchProfile : IsoSwitchId) (c : IsoConnection) :
    PipelineEvent → Option IsoConnection
  | .frame body =>
    let k := c.requests.length
    let c := { c with requests := c.requests ++ [body] }
    if callsHost (mtiOf body) then some { c with waiting := c.waiting ++ [(k, body)] }
    else some (c.write k (immediateReply (getSwitchById switchProfile) (mtiOf body)))
  | .callEnded k result =>
    match c.waiting.lookup k with
    | none => none
    | some body =>
      (calledReply (getSwitchById switchProfile) (mtiOf body) result).map fun reply =>
        { c with waiting := c.waiting.filter (·.1 ≠ k) }.write k reply

/-- The MTI of the response to a request; a request of another kind is refused with an 0810. -/
def responseMti (mti : String) : String :=
  if mti = "0100" then "0110"
  else if mti = "0200" then "0210"
  else if mti = "0400" then "0410"
  else "0810"

/-- The k-th response answers the k-th request, with its MTI. -/
def InOrder (c : IsoConnection) : Prop :=
  ∀ (k n : Nat) (reply : IsoReply), c.responses[k]? = some (n, reply) →
    n = k ∧ ∃ body, c.requests[k]? = some body ∧ reply.mti = responseMti (mtiOf body)

/-- A request without a host call comes when all before it are answered; a host call ends with a
result, and when all requests before its own are answered. -/
def Orderly (c : IsoConnection) : PipelineEvent → Prop
  | .frame body => callsHost (mtiOf body) = true ∨ c.responses.length = c.requests.length
  | .callEnded k result => k = c.responses.length ∧ result.threw = false

instance (c : IsoConnection) (e : PipelineEvent) : Decidable (Orderly c e) :=
  match e with
  | .frame _ => inferInstanceAs (Decidable (_ ∨ _))
  | .callEnded _ _ => inferInstanceAs (Decidable (_ ∧ _))

theorem immediateReply_mti {mti : String} (hmti : callsHost mti = false)
    (profile : IsoSwitchProfile) : (immediateReply profile mti).mti = responseMti mti := by
  simp only [callsHost, decide_eq_false_iff_not, not_or] at hmti
  unfold immediateReply responseMti
  rw [if_neg hmti.1, if_neg hmti.2]
  split_ifs <;> rfl

theorem calledReply_mti {profile : IsoSwitchProfile} {mti : String} {result : CallEnd}
    {reply : IsoReply} (h : calledReply profile mti result = some reply)
    (hresult : result.threw = false) : reply.mti = responseMti mti := by
  cases result with
  | authenticated r =>
    simp only [calledReply, Option.ite_none_right_eq_some, Option.some.injEq] at h
    obtain ⟨rfl, rfl⟩ := h
    rfl
  | authorized r =>
    simp only [calledReply, Option.ite_none_right_eq_some, Option.some.injEq] at h
    obtain ⟨rfl, rfl⟩ := h
    rfl
  | thrown message => cases hresult

/-- The requests waiting for their host call are where they say. -/
def Placed (c : IsoConnection) : Prop :=
  ∀ k body, (k, body) ∈ c.waiting → c.requests[k]? = some body

theorem inOrder_write {c : IsoConnection} {k : Nat} {reply : IsoReply} {body : String}
    (h : InOrder c) (hk : k = c.responses.length) (hbody : c.requests[k]? = some body)
    (hmti : reply.mti = responseMti (mtiOf body)) : InOrder (c.write k reply) := by
  unfold IsoConnection.write
  split
  · intro j n other hother
    rcases Nat.lt_or_ge j c.responses.length with hj | hj
    · rw [List.getElem?_append_left hj] at hother
      exact h j n other hother
    · rw [List.getElem?_append_right hj] at hother
      have hlast : j - c.responses.length = 0 := by
        by_contra hne
        rw [List.getElem?_eq_none (by simp; omega)] at hother
        cases hother
      rw [hlast] at hother
      cases hother
      have hjk : j = k := by omega
      rw [hjk]
      exact ⟨rfl, body, hbody, hmti⟩
  · exact h

theorem write_requests (c : IsoConnection) (k : Nat) (reply : IsoReply) :
    (c.write k reply).requests = c.requests ∧ (c.write k reply).waiting = c.waiting := by
  unfold IsoConnection.write
  split <;> exact ⟨rfl, rfl⟩

/-- A request more does not change what the earlier ones are answered with. -/
theorem inOrder_request {c : IsoConnection} (h : InOrder c) (body : String) :
    InOrder { c with requests := c.requests ++ [body] } := by
  intro k n reply hreply
  obtain ⟨hn, request, hrequest, hmti⟩ := h k n reply hreply
  refine ⟨hn, request, ?_, hmti⟩
  rw [List.getElem?_append_left (List.getElem?_eq_some_iff.mp hrequest).1]
  exact hrequest

theorem placed_request {c : IsoConnection} (h : Placed c) (body : String) :
    Placed { c with requests := c.requests ++ [body] } := by
  intro k request hrequest
  have hold := h k request hrequest
  rw [List.getElem?_append_left (List.getElem?_eq_some_iff.mp hold).1]
  exact hold

/-- One step in order keeps the responses in order. -/
theorem inOrder_step {switchProfile : IsoSwitchId} {c c' : IsoConnection} {e : PipelineEvent}
    (h : InOrder c ∧ Placed c) (hok : Orderly c e)
    (hstep : pipelineStep switchProfile c e = some c') :
    InOrder c' ∧ Placed c' := by
  obtain ⟨horder, hplaced⟩ := h
  cases e with
  | frame body =>
    have hrequest := inOrder_request horder body
    have hplaces := placed_request hplaced body
    have hnew : (c.requests ++ [body])[c.requests.length]? = some body := by simp
    simp only [pipelineStep] at hstep
    split_ifs at hstep with hcalls
    · have heq := Option.some.inj hstep
      subst heq
      refine ⟨hrequest, fun k request hwaiting => ?_⟩
      rcases List.mem_append.mp hwaiting with hwaiting | hwaiting
      · exact hplaces k request hwaiting
      · cases List.mem_singleton.mp hwaiting
        exact hnew
    · have heq := Option.some.inj hstep
      subst heq
      have hlength : c.requests.length = c.responses.length :=
        (hok.resolve_left (by simpa using hcalls)).symm
      have hmti := immediateReply_mti (by simpa using hcalls) (getSwitchById switchProfile)
      refine ⟨inOrder_write hrequest hlength hnew hmti, ?_⟩
      obtain ⟨hsame, hwaits⟩ := write_requests { c with requests := c.requests ++ [body] }
        c.requests.length (immediateReply (getSwitchById switchProfile) (mtiOf body))
      intro k request hwaiting
      rw [hwaits] at hwaiting
      rw [hsame]
      exact hplaces k request hwaiting
  | callEnded k result =>
    obtain ⟨hk, hresult⟩ := hok
    simp only [pipelineStep] at hstep
    split at hstep
    · cases hstep
    · rename_i body hlookup
      obtain ⟨reply, hreply, rfl⟩ := Option.map_eq_some_iff.mp hstep
      obtain ⟨before, after, hwaiting, -⟩ := List.lookup_eq_some_iff.mp hlookup
      have hbody : c.requests[k]? = some body := hplaced k body (by simp [hwaiting])
      refine ⟨inOrder_write (c := { c with waiting := c.waiting.filter (·.1 ≠ k) }) horder hk hbody
        (calledReply_mti hreply hresult), fun j request hj => ?_⟩
      obtain ⟨hsame, hwaits⟩ :=
        write_requests { c with waiting := c.waiting.filter (·.1 ≠ k) } k reply
      rw [hwaits] at hj
      rw [hsame]
      exact hplaced j request (List.mem_filter.mp hj).1

/-- The responses of a connection on which every step is in order are in order throughout. -/
theorem responses_inOrder {switchProfile : IsoSwitchId} {events : List PipelineEvent}
    (h : Along (pipelineStep switchProfile) Orderly IsoConnection.start events) :
    Always (pipelineStep switchProfile) InOrder IsoConnection.start events := by
  have hstart : InOrder IsoConnection.start ∧ Placed IsoConnection.start :=
    ⟨fun k n reply hreply => by simp [IsoConnection.start] at hreply,
      fun k body hbody => by simp [IsoConnection.start] at hbody⟩
  exact (always_of_along (P := fun c => InOrder c ∧ Placed c)
    (fun _ _ _ hc hok hstep => inOrder_step hc hok hstep) hstart h).mono fun _ hc => hc.1

/-- An echo, and then a withdrawal that is answered before the next echo. -/
theorem responses_inOrder_withdrawal :
    Always (pipelineStep .jalin) InOrder IsoConnection.start
      [.frame "0800", .frame "0200|2=1|4=50000", .callEnded 1 (.authorized
        ⟨true, "00", some "A1", "000123", none, none, .jalin, "JALIN"⟩), .frame "0800"] :=
  responses_inOrder (by decide)

/-- A withdrawal and an echo in one pipeline: the echo is answered first. And a withdrawal whose
host call throws is answered with an 0810. -/
theorem echo_overtakes_withdrawal :
    ¬Always (pipelineStep .jalin) InOrder IsoConnection.start
        [.frame "0200|2=1|4=50000", .frame "0800"] ∧
      ¬Always (pipelineStep .jalin) InOrder IsoConnection.start
        [.frame "0200|2=1|4=50000", .callEnded 0 (.thrown "connection lost")] := by
  constructor
  · intro h
    have hlast := h.last (t := ⟨["0200|2=1|4=50000", "0800"], [(0, "0200|2=1|4=50000")],
      [(1, ⟨"0810", [("39", "00"), ("switch", "JALIN"), ("alive", "true")]⟩)]⟩) (by decide)
    exact absurd (hlast 0 1 _ rfl).1 (by decide)
  · intro h
    have hlast := h.last (t := ⟨["0200|2=1|4=50000"], [],
      [(0, ⟨"0810", [("39", "96"), ("reason", "connection lost")]⟩)]⟩) (by decide)
    obtain ⟨-, body, hbody, hmti⟩ := hlast 0 0 _ rfl
    cases hbody
    exact absurd hmti (by decide)

end AtmXfs.Host
