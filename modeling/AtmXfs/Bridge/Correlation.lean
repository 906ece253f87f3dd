import AtmXfs.Bridge.Exchange
import Mathlib.Data.List.Nodup

namespace AtmXfs.Bridge

open Js JsonText Dll Runs
open Framing (Bytes)

theorem findField_eq (n : FieldName) (body : Bytes) :
    findField body n.bytes =
      match afterFirst (n.searched ++ [0x22]) body with
      | none => []
      | some rest => if 0x22 ∈ rest then rest.takeWhile (· ≠ 0x22) else [] := by
  have hneedle : ascii "\"" ++ n.bytes ++ ascii "\":\"" = n.searched ++ [0x22] := by
    rw [FieldName.searched, List.cons_append, List.append_assoc, List.append_assoc]
    rfl
  have hfind : findField body n.bytes =
      match afterFirst (ascii "\"" ++ n.bytes ++ ascii "\":\"") body with
      | none => []
      | some rest => if 0x22 ∈ rest then rest.takeWhile (· ≠ 0x22) else [] := rfl
  rw [hfind, hneedle]

/-- The first string behind the name is found. -/
theorem findField_found {n : FieldName} {body t rest : Bytes} (ht : ∀ b ∈ t, b ≠ 0x22)
    (h : afterFirst n.searched body = some (0x22 :: (t ++ 0x22 :: rest))) :
    findField body n.bytes = t := by
  have hlong : afterFirst (n.searched ++ [0x22]) body = some (t ++ 0x22 :: rest) :=
    afterFirst_append h
  have hquote : (0x22 : UInt8) ∈ t ++ 0x22 :: rest := by simp
  rw [findField_eq, hlong]
  simp only
  rw [if_pos hquote, takeWhile_plain ht]

namespace ServerFrame

theorem findField_type (f : ServerFrame) : findField f.body (ascii "type") = f.type.bytes := by
  apply findField_found (n := typeName) f.type.noQuote
  rw [body, afterFirst_other (by decide), afterFirst_textMember_found, PlainText.quoted,
    List.cons_append, List.append_assoc]
  rfl

theorem findField_id (f : ServerFrame) : findField f.body (ascii "id") = f.id.bytes := by
  have hfound : afterFirst idName.searched f.body =
      some (0x22 :: (f.id.bytes ++ 0x22 :: f.rest)) := by
    rw [body, afterFirst_other (by decide), afterFirst_textMember (by decide), afterFirst_found,
      PlainText.quoted, List.cons_append, List.append_assoc]
    rfl
  exact findField_found f.id.noQuote hfound

end ServerFrame

def requestText : PlainText := ⟨ascii "request", by decide⟩

theorem findField_requestBody {id : Bytes} (hid : ∀ b ∈ id, b ≠ 0x22) (args : RequestArgs) :
    findField (requestBody id args) (ascii "id") = id := by
  have htype : ascii "\x7b\"type\":\"request\"," = 0x7b :: textMember typeName requestText := by
    decide +kernel
  have hname : ascii "\"id\":\"" = idName.searched ++ [0x22] := by
    decide +kernel
  have hquote : ascii "\"," = [0x22, 0x2c] := rfl
  apply findField_found (n := idName) hid
  rw [requestBody, htype, List.cons_append, afterFirst_other (by decide),
    afterFirst_textMember (by decide), hname, List.append_assoc, afterFirst_found, hquote]
  rfl

theorem noQuote_makeId (n : UInt64) : ∀ b ∈ makeId n, b ≠ 0x22 := by
  intro b hb
  rcases List.mem_append.mp hb with hprefix | hdigit
  · have hletters : ∀ b ∈ ascii "REQ_", b ≠ 0x22 := by decide
    exact hletters b hprefix
  · intro heq
    have hle := (isDigit_decimalBytes hdigit).1
    rw [heq] at hle
    exact absurd hle (by decide)

theorem makeId_injective {m n : UInt64} (h : makeId m = makeId n) : m = n := by
  have hdigits : decimalBytes m.toNat = decimalBytes n.toNat := List.append_cancel_left h
  have hchars := congrArg (fun bs => digitsNumber (chars bs)) hdigits
  simp only [chars_decimalBytes, digitsNumber_decimal] at hchars
  exact UInt64.toNat_inj.mp hchars

/-- The frame that was received n-th is a response to the k-th call. -/
structure Answers (s : Exchange) (n k : Nat) (f : ServerFrame) : Prop where
  received : s.received[n]? = some f
  response : f.type.bytes = ascii "response"
  mine : f.id.bytes = (s.call k).id

/-- The k-th call returns the body of a response delivered to it. -/
def Delivers (s : Exchange) (k : Nat) (resp : BridgeResponse) : Prop :=
  ∃ n f, (n, k) ∈ s.deliveries ∧ s.received[n]? = some f ∧ resp.payloadJson = f.body ∧
    resp.result = findResult f.body

/-- The slot of the k-th call was woken when the connection ended. -/
def Woken (resp : BridgeResponse) : Prop :=
  resp.result = -5 ∧ resp.errorDetail = ascii "bridge disconnected"

/-- What the k-th call returns. -/
def Returns (s : Exchange) (k : Nat) (resp : BridgeResponse) : Prop :=
  Delivers s k resp ∨ Woken resp ∨ resp = .sendFailed ∨ resp = .timedOut

/-- The last frame is the n-th, and it has not been delivered. -/
structure Fresh (s : Exchange) (n : Nat) : Prop where
  last : n + 1 = s.received.length
  kept : ∀ d ∈ s.deliveries, d.1 < n

structure Inv (s : Exchange) : Prop where
  next : s.nextId = UInt64.ofNat (s.count + 1)
  few : s.count < 2 ^ 64
  ids : ∀ k < s.count, (s.call k).id = makeId (UInt64.ofNat (k + 1))
  requests : ∀ k, findField (s.call k).request (ascii "id") = (s.call k).id
  unborn : ∀ k, s.count ≤ k → s.call k = Call.start
  table : ∀ e ∈ s.pending, e.2 < s.count ∧ e.1 = (s.call e.2).id
  matching : ∀ n, s.reader = .toMatch n → Fresh s n ∧
    ∃ f, s.received[n]? = some f ∧ f.type.bytes = ascii "response"
  filling : ∀ n k, s.reader = .toFill n k → Fresh s n ∧ k < s.count ∧ ∃ f, Answers s n k f
  waking : ∀ rest, s.reader = .closing rest → ∀ k ∈ rest, k < s.count
  delivered : ∀ n k, (n, k) ∈ s.deliveries → k < s.count ∧ ∃ f, Answers s n k f
  once : (s.deliveries.map Prod.fst).Nodup
  born : ∀ k < s.count, (s.call k).pc ≠ .unborn
  filled : ∀ k, (s.call k).done = true →
    Delivers s k (s.call k).response ∨ Woken (s.call k).response
  details : ∀ k, (s.call k).response.errorDetail = [] ∨
    (s.call k).response.errorDetail = ascii "bridge disconnected"
  ended : ∀ k, (s.call k).pc = .returned → ∃ resp, (s.call k).result = some resp
  answered : ∀ k resp, (s.call k).result = some resp → Returns s k resp

/-- Where a step takes a call, and what the call has returned then. -/
inductive CallTurn (c : Call) (flag : Bool) : CallPc → Option BridgeResponse → Prop
  | registers (h : c.pc = .toRegister) : CallTurn c flag .toSend c.result
  | sends (h : c.pc = .toSend) (hflag : flag = true) : CallTurn c flag .waiting c.result
  | fails (h : c.pc = .toSend) (hflag : flag = false) : CallTurn c flag .toWithdraw c.result
  | withdraws (h : c.pc = .toWithdraw) : CallTurn c flag .returned (some .sendFailed)
  | takes (h : c.pc = .waiting) (hdone : c.done = true) :
    CallTurn c flag .returned (some c.response)
  | givesUp (h : c.pc = .waiting) (hdone : c.done = false) (hflag : flag = true) :
    CallTurn c flag .gaveUp c.result
  | timesOut (h : c.pc = .gaveUp) : CallTurn c flag .returned (some .timedOut)

theorem CallTurn.born {c : Call} {flag : Bool} {pc : CallPc} {result : Option BridgeResponse}
    (h : CallTurn c flag pc result) : c.pc ≠ .unborn ∧ pc ≠ .unborn := by
  cases h <;> simp_all

theorem CallTurn.result_of_returned {c : Call} {flag : Bool} {pc : CallPc}
    {result : Option BridgeResponse} (h : CallTurn c flag pc result) (hpc : pc = .returned) :
    ∃ resp, result = some resp := by
  cases h with
  | registers | sends | fails | givesUp => cases hpc
  | withdraws | takes | timesOut => exact ⟨_, rfl⟩

theorem CallTurn.result {c : Call} {flag : Bool} {pc : CallPc} {result : Option BridgeResponse}
    (h : CallTurn c flag pc result) {resp : BridgeResponse} (hresp : result = some resp) :
    c.result = some resp ∨ (c.done = true ∧ resp = c.response) ∨
      (c.pc = .toWithdraw ∧ resp = .sendFailed) ∨ (c.pc = .gaveUp ∧ resp = .timedOut) := by
  cases h with
  | registers | sends | fails | givesUp => exact Or.inl hresp
  | withdraws hpc =>
    cases hresp
    exact Or.inr (Or.inr (Or.inl ⟨hpc, rfl⟩))
  | takes hpc hdone =>
    cases hresp
    exact Or.inr (Or.inl ⟨hdone, rfl⟩)
  | timesOut hpc =>
    cases hresp
    exact Or.inr (Or.inr (Or.inr ⟨hpc, rfl⟩))

/-- What a step of the k-th call can do. -/
structure CallAdvance (s t : Exchange) (k : Nat) (flag : Bool) : Prop where
  nextId : t.nextId = s.nextId
  count : t.count = s.count
  reader : t.reader = s.reader
  received : t.received = s.received
  deliveries : t.deliveries = s.deliveries
  others : ∀ j, j ≠ k → t.call j = s.call j
  id : (t.call k).id = (s.call k).id
  request : (t.call k).request = (s.call k).request
  done : (t.call k).done = (s.call k).done
  response : (t.call k).response = (s.call k).response
  pending : ∀ e ∈ t.pending, e ∈ s.pending ∨ e = ((s.call k).id, k)
  turn : CallTurn (s.call k) flag (t.call k).pc (t.call k).result

theorem setCall_same (s : Exchange) (k : Nat) (c : Call) : (s.setCall k c).call k = c :=
  Function.update_self ..

theorem setCall_other (s : Exchange) {j k : Nat} (h : j ≠ k) (c : Call) :
    (s.setCall k c).call j = s.call j := Function.update_of_ne h ..

/-- A step that moves the call and leaves the table and what the call returns. -/
theorem callAdvance_moveTo (s : Exchange) {k : Nat} {flag : Bool} {pc : CallPc}
    (hturn : CallTurn (s.call k) flag pc (s.call k).result) :
    CallAdvance s (s.moveTo k pc) k flag where
  nextId := rfl
  count := rfl
  reader := rfl
  received := rfl
  deliveries := rfl
  others _ hj := setCall_other s hj _
  id := by rw [Exchange.moveTo, setCall_same]
  request := by rw [Exchange.moveTo, setCall_same]
  done := by rw [Exchange.moveTo, setCall_same]
  response := by rw [Exchange.moveTo, setCall_same]
  pending _ he := Or.inl he
  turn := by
    rw [Exchange.moveTo, setCall_same]
    exact hturn

theorem callAdvance_finish (s : Exchange) {k : Nat} {flag : Bool} {resp : BridgeResponse}
    (hturn : CallTurn (s.call k) flag .returned (some resp)) :
    CallAdvance s (s.finish k resp) k flag where
  nextId := rfl
  count := rfl
  reader := rfl
  received := rfl
  deliveries := rfl
  others _ hj := setCall_other s hj _
  id := by rw [Exchange.finish, setCall_same]
  request := by rw [Exchange.finish, setCall_same]
  done := by rw [Exchange.finish, setCall_same]
  response := by rw [Exchange.finish, setCall_same]
  pending _ he := Or.inl he
  turn := by
    rw [Exchange.finish, setCall_same]
    exact hturn

theorem mem_emplace {s : Exchange} {k : Nat} {e : Bytes × Nat} (he : e ∈ (s.emplace k).pending) :
    e ∈ s.pending ∨ e = ((s.call k).id, k) := by
  unfold Exchange.emplace at he
  split_ifs at he
  · exact Or.inl he
  · simpa using he

theorem mem_eraseId {s : Exchange} {id : Bytes} {e : Bytes × Nat}
    (he : e ∈ (s.eraseId id).pending) : e ∈ s.pending := (List.mem_filter.mp he).1

/-- A change of the table alone, before the step. -/
theorem CallAdvance.after_table {s u t : Exchange} {k : Nat} {flag : Bool}
    (h : CallAdvance u t k flag)
    {table : List (Bytes × Nat)} (hu : u = { s with pending := table })
    (htable : ∀ e ∈ table, e ∈ s.pending ∨ e = ((s.call k).id, k)) : CallAdvance s t k flag := by
  subst hu
  exact ⟨h.nextId, h.count, h.reader, h.received, h.deliveries, h.others, h.id, h.request, h.done,
    h.response, fun e he => (h.pending e he).elim (htable e) Or.inr, h.turn⟩

theorem emplace_eq (s : Exchange) (k : Nat) :
    s.emplace k = { s with pending := (s.emplace k).pending } := by
  unfold Exchange.emplace
  split_ifs
  · rfl
  · rfl

theorem callerStep_move {s t : Exchange} {k : Nat} {flag : Bool}
    (h : s.callerStep k flag = some t) : CallAdvance s t k flag := by
  unfold Exchange.callerStep at h
  cases hpc : (s.call k).pc with
  | unborn =>
    rw [hpc] at h
    cases h
  | toRegister =>
    rw [hpc] at h
    simp only at h
    split_ifs at h
    cases h
    have hcall : ((s.emplace k).call k).pc = .toRegister := by
      rw [emplace_eq, hpc]
    exact (callAdvance_moveTo _ (.registers hcall)).after_table (emplace_eq s k)
      fun e he => mem_emplace he
  | toSend =>
    rw [hpc] at h
    cases h
    cases flag with
    | true => exact callAdvance_moveTo s (.sends hpc rfl)
    | false => exact callAdvance_moveTo s (.fails hpc rfl)
  | toWithdraw =>
    rw [hpc] at h
    simp only at h
    split_ifs at h
    cases h
    exact (callAdvance_finish (s.eraseId (s.call k).id) (.withdraws hpc)).after_table rfl
      fun e he => Or.inl (mem_eraseId he)
  | waiting =>
    rw [hpc] at h
    simp only at h
    split_ifs at h with hdone hflag
    · cases h
      exact callAdvance_finish s (.takes hpc hdone)
    · cases h
      exact callAdvance_moveTo s (.givesUp hpc (Bool.eq_false_iff.mpr hdone) hflag)
  | gaveUp =>
    rw [hpc] at h
    simp only at h
    split_ifs at h
    cases h
    exact (callAdvance_finish (s.eraseId (s.call k).id) (.timesOut hpc)).after_table rfl
      fun e he => Or.inl (mem_eraseId he)
  | returned =>
    rw [hpc] at h
    cases h

theorem received_of_prefix {s t : Exchange} (h : s.received <+: t.received) {n : Nat}
    {f : ServerFrame} (hf : s.received[n]? = some f) : t.received[n]? = some f := by
  obtain ⟨more, hmore⟩ := h
  obtain ⟨hn, -⟩ := List.getElem?_eq_some_iff.mp hf
  rw [← hmore, List.getElem?_append_left hn]
  exact hf

theorem Answers.mono {s t : Exchange} {n k : Nat} {f : ServerFrame} (h : Answers s n k f)
    (hreceived : s.received <+: t.received) (hid : (t.call k).id = (s.call k).id) :
    Answers t n k f where
  received := received_of_prefix hreceived h.received
  response := h.response
  mine := h.mine.trans hid.symm

theorem Delivers.mono {s t : Exchange} {k : Nat} {resp : BridgeResponse} (h : Delivers s k resp)
    (hreceived : s.received <+: t.received)
    (hdeliveries : ∀ d ∈ s.deliveries, d ∈ t.deliveries) : Delivers t k resp := by
  obtain ⟨n, f, hmem, hf, hbody⟩ := h
  exact ⟨n, f, hdeliveries _ hmem, received_of_prefix hreceived hf, hbody⟩

theorem inv_start : Inv Exchange.start where
  next := rfl
  few := by decide
  ids _ hk := absurd hk (Nat.not_lt_zero _)
  requests _ := rfl
  unborn _ _ := rfl
  table _ he := absurd he List.not_mem_nil
  matching _ h := by cases h
  filling _ _ h := by cases h
  waking _ h := by cases h
  delivered _ _ h := absurd h List.not_mem_nil
  once := List.nodup_nil
  born _ hk := absurd hk (Nat.not_lt_zero _)
  filled _ h := by cases h
  details _ := Or.inl rfl
  ended _ h := by cases h
  answered _ _ h := by cases h

/-- Only a call that has begun takes a step. -/
theorem CallAdvance.begun {s t : Exchange} {k : Nat} {flag : Bool} (h : CallAdvance s t k flag)
    (hs : Inv s) : k < s.count := by
  by_contra hle
  exact h.turn.born.1 (by rw [hs.unborn k (Nat.not_lt.mp hle)]; rfl)

theorem Inv.callAdvance {s t : Exchange} {k : Nat} {flag : Bool} (hs : Inv s)
    (h : CallAdvance s t k flag) : Inv t := by
  have hk := h.begun hs
  have hid : ∀ j, (t.call j).id = (s.call j).id := by
    intro j
    by_cases hj : j = k
    · rw [hj, h.id]
    · rw [h.others j hj]
  have hreceived : s.received <+: t.received := by
    rw [h.received]
  have hdeliveries : ∀ d ∈ s.deliveries, d ∈ t.deliveries := by
    rw [h.deliveries]
    exact fun _ hd => hd
  have hfresh : ∀ n, Fresh s n → Fresh t n := by
    intro n hn
    refine ⟨?_, ?_⟩
    · rw [h.received]
      exact hn.last
    · rw [h.deliveries]
      exact hn.kept
  constructor
  · rw [h.nextId, h.count]
    exact hs.next
  · rw [h.count]
    exact hs.few
  · intro j hj
    rw [hid]
    exact hs.ids j (h.count ▸ hj)
  · intro j
    by_cases hj : j = k
    · rw [hj, h.request, h.id]
      exact hs.requests k
    · rw [h.others j hj]
      exact hs.requests j
  · intro j hj
    rw [h.count] at hj
    rw [h.others j (by omega)]
    exact hs.unborn j hj
  · intro e he
    rw [h.count, hid]
    rcases h.pending e he with hold | rfl
    · exact hs.table e hold
    · exact ⟨hk, rfl⟩
  · intro n hn
    rw [h.reader] at hn
    obtain ⟨hlast, f, hf, hresponse⟩ := hs.matching n hn
    exact ⟨hfresh n hlast, f, received_of_prefix hreceived hf, hresponse⟩
  · intro n j hn
    rw [h.reader] at hn
    obtain ⟨hlast, hj, f, hf⟩ := hs.filling n j hn
    exact ⟨hfresh n hlast, h.count ▸ hj, f, hf.mono hreceived (hid j)⟩
  · intro rest hrest
    rw [h.reader] at hrest
    rw [h.count]
    exact hs.waking rest hrest
  · intro n j hn
    rw [h.deliveries] at hn
    obtain ⟨hj, f, hf⟩ := hs.delivered n j hn
    exact ⟨h.count ▸ hj, f, hf.mono hreceived (hid j)⟩
  · rw [h.deliveries]
    exact hs.once
  · intro j hj
    rw [h.count] at hj
    by_cases hjk : j = k
    · rw [hjk]
      exact h.turn.born.2
    · rw [h.others j hjk]
      exact hs.born j hj
  · intro j hj
    by_cases hjk : j = k
    · rw [hjk, h.done] at hj
      rw [hjk, h.response]
      exact (hs.filled k hj).imp_left fun hd => hd.mono hreceived hdeliveries
    · rw [h.others j hjk] at hj ⊢
      exact (hs.filled j hj).imp_left fun hd => hd.mono hreceived hdeliveries
  · intro j
    by_cases hjk : j = k
    · rw [hjk, h.response]
      exact hs.details k
    · rw [h.others j hjk]
      exact hs.details j
  · intro j hj
    by_cases hjk : j = k
    · rw [hjk] at hj ⊢
      exact h.turn.result_of_returned hj
    · rw [h.others j hjk] at hj ⊢
      exact hs.ended j hj
  · intro j resp hj
    by_cases hjk : j = k
    · rw [hjk] at hj ⊢
      rcases h.turn.result hj with hold | ⟨hdone, rfl⟩ | herror
      · exact (hs.answered k resp hold).imp_left fun hd => hd.mono hreceived hdeliveries
      · rcases hs.filled k hdone with hd | hwoken
        · exact Or.inl (hd.mono hreceived hdeliveries)
        · exact Or.inr (Or.inl hwoken)
      · exact Or.inr (Or.inr (herror.imp And.right And.right))
    · rw [h.others j hjk] at hj
      exact (hs.answered j resp hj).imp_left fun hd => hd.mono hreceived hdeliveries

theorem Inv.beginCall {s : Exchange} (hs : Inv s) (hfew : s.count + 1 < 2 ^ 64) (args : RequestArgs) :
    Inv (s.beginCall args) := by
  have hself : (s.beginCall args).call s.count =
      { Call.start with id := makeId s.nextId, request := requestBody (makeId s.nextId) args,
                        pc := .toRegister } := Function.update_self ..
  have hother : ∀ j, j ≠ s.count → (s.beginCall args).call j = s.call j :=
    fun j hj => Function.update_of_ne hj ..
  have hold : ∀ j, j < s.count → ((s.beginCall args).call j).id = (s.call j).id := by
    intro j hj
    rw [hother j (Nat.ne_of_lt hj)]
  have hcount : (s.beginCall args).count = s.count + 1 := rfl
  constructor
  · change s.nextId + 1 = UInt64.ofNat (s.count + 1 + 1)
    rw [hs.next, UInt64.ofNat_add (s.count + 1) 1]
    rfl
  · exact hfew
  · intro j hj
    by_cases hjc : j = s.count
    · rw [hjc, hself, hs.next]
    · rw [hother j hjc]
      exact hs.ids j (by omega)
  · intro j
    by_cases hjc : j = s.count
    · rw [hjc, hself]
      exact findField_requestBody (noQuote_makeId _) args
    · rw [hother j hjc]
      exact hs.requests j
  · intro j hj
    rw [hother j (by omega)]
    exact hs.unborn j (by omega)
  · intro e he
    obtain ⟨hlt, hid⟩ := hs.table e he
    exact ⟨Nat.lt_succ_of_lt hlt, hid.trans (hold _ hlt).symm⟩
  · intro n hn
    obtain ⟨hlast, f, hf⟩ := hs.matching n hn
    exact ⟨⟨hlast.last, hlast.kept⟩, f, hf⟩
  · intro n k hn
    obtain ⟨hlast, hk, f, hf⟩ := hs.filling n k hn
    exact ⟨⟨hlast.last, hlast.kept⟩, Nat.lt_succ_of_lt hk, f, hf.mono List.prefix_rfl (hold k hk)⟩
  · intro rest hrest k hk
    exact Nat.lt_succ_of_lt (hs.waking rest hrest k hk)
  · intro n k hn
    obtain ⟨hk, f, hf⟩ := hs.delivered n k hn
    exact ⟨Nat.lt_succ_of_lt hk, f, hf.mono List.prefix_rfl (hold k hk)⟩
  · exact hs.once
  · intro j hj
    by_cases hjc : j = s.count
    · rw [hjc, hself]
      exact CallPc.noConfusion
    · rw [hother j hjc]
      exact hs.born j (by omega)
  · intro j hj
    by_cases hjc : j = s.count
    · rw [hjc, hself] at hj
      cases hj
    · rw [hother j hjc] at hj ⊢
      exact hs.filled j hj
  · intro j
    by_cases hjc : j = s.count
    · rw [hjc, hself]
      exact Or.inl rfl
    · rw [hother j hjc]
      exact hs.details j
  · intro j hj
    by_cases hjc : j = s.count
    · rw [hjc, hself] at hj
      cases hj
    · rw [hother j hjc] at hj ⊢
      exact hs.ended j hj
  · intro j resp hj
    by_cases hjc : j = s.count
    · rw [hjc, hself] at hj
      cases hj
    · rw [hother j hjc] at hj
      exact hs.answered j resp hj

/-- The reader turns to something else, and entries may leave the table. -/
theorem Inv.turn {s : Exchange} (hs : Inv s) {table : List (Bytes × Nat)}
    (htable : ∀ e ∈ table, e ∈ s.pending) {reader : ReadPc}
    (hmatch : ∀ n, reader = .toMatch n → Fresh s n ∧
      ∃ f, s.received[n]? = some f ∧ f.type.bytes = ascii "response")
    (hfill : ∀ n k, reader = .toFill n k → Fresh s n ∧ k < s.count ∧ ∃ f, Answers s n k f)
    (hwake : ∀ rest, reader = .closing rest → ∀ k ∈ rest, k < s.count) :
    Inv { s with pending := table, reader := reader } where
  next := hs.next
  few := hs.few
  ids := hs.ids
  requests := hs.requests
  unborn := hs.unborn
  table e he := hs.table e (htable e he)
  matching n h := by
    obtain ⟨hlast, f, hf⟩ := hmatch n h
    exact ⟨⟨hlast.last, hlast.kept⟩, f, hf⟩
  filling n k h := by
    obtain ⟨hlast, hk, f, hf⟩ := hfill n k h
    exact ⟨⟨hlast.last, hlast.kept⟩, hk, f, hf.mono List.prefix_rfl rfl⟩
  waking := hwake
  delivered n k h := by
    obtain ⟨hk, f, hf⟩ := hs.delivered n k h
    exact ⟨hk, f, hf.mono List.prefix_rfl rfl⟩
  once := hs.once
  born := hs.born
  filled := hs.filled
  details := hs.details
  ended := hs.ended
  answered := hs.answered

/-- The reader turns away from the frames. -/
theorem Inv.idle {s : Exchange} (hs : Inv s) {table : List (Bytes × Nat)}
    (htable : ∀ e ∈ table, e ∈ s.pending) {reader : ReadPc}
    (hreader : reader = .reading ∨ reader = .stopped) :
    Inv { s with pending := table, reader := reader } := by
  apply hs.turn htable
  · intro n h
    rcases hreader with rfl | rfl <;> cases h
  · intro n k h
    rcases hreader with rfl | rfl <;> cases h
  · intro rest h
    rcases hreader with rfl | rfl <;> cases h

theorem Inv.slots {s : Exchange} (hs : Inv s) : ∀ k ∈ s.pending.map Prod.snd, k < s.count := by
  intro k hk
  obtain ⟨e, he, rfl⟩ := List.mem_map.mp hk
  exact (hs.table e he).1

theorem Inv.close {s : Exchange} (hs : Inv s) :
    Inv { s with reader := .closing (s.pending.map Prod.snd) } := by
  apply hs.turn (fun e he => he)
  · exact fun _ h => by cases h
  · exact fun _ _ h => by cases h
  · intro rest hrest
    cases hrest
    exact hs.slots

theorem Inv.past {s : Exchange} (hs : Inv s) : ∀ d ∈ s.deliveries, d.1 < s.received.length := by
  intro d hd
  obtain ⟨-, f, hf⟩ := hs.delivered d.1 d.2 hd
  exact (List.getElem?_eq_some_iff.mp hf.received).1

theorem Inv.append {s : Exchange} (hs : Inv s) (hreading : s.reader = .reading) (f : ServerFrame) :
    Inv { s with received := s.received ++ [f] } := by
  have hprefix : s.received <+: s.received ++ [f] := List.prefix_append ..
  have hreader : ∀ reader, s.reader = reader → reader = .reading :=
    fun _ h => h.symm.trans hreading
  refine ⟨hs.next, hs.few, hs.ids, hs.requests, hs.unborn, hs.table, ?_, ?_, ?_, ?_, hs.once,
    hs.born, ?_, hs.details, hs.ended, ?_⟩
  · exact fun n hn => by cases hreader _ hn
  · exact fun n k hn => by cases hreader _ hn
  · exact fun rest hrest => by cases hreader _ hrest
  · intro n k hn
    obtain ⟨hk, f', hf⟩ := hs.delivered n k hn
    exact ⟨hk, f', hf.mono hprefix rfl⟩
  · exact fun k hk => (hs.filled k hk).imp_left fun hd => hd.mono hprefix fun _ hd => hd
  · exact fun k resp hk => (hs.answered k resp hk).imp_left fun hd => hd.mono hprefix fun _ hd => hd

theorem Inv.receive {s : Exchange} (hs : Inv s) (hreading : s.reader = .reading) (f : ServerFrame) :
    Inv (s.receive f) := by
  have happend := hs.append hreading f
  unfold Exchange.receive
  split_ifs with hlong hresponse
  · exact hs.close
  · apply happend.turn (fun e he => he)
    · intro n hn
      cases hn
      rw [f.findField_type] at hresponse
      exact ⟨⟨by simp, hs.past⟩, f, by simp, hresponse⟩
    · exact fun _ _ h => by cases h
    · exact fun _ h => by cases h
  · exact happend.idle (fun e he => he) (Or.inl rfl)

/-- The reader looks the id of the frame up in the table. -/
theorem Inv.lookup {s : Exchange} (hs : Inv s) {n : Nat} (hn : s.reader = .toMatch n)
    {f : ServerFrame} (hf : s.received[n]? = some f) {e : Bytes × Nat}
    (he : s.pending.find? (fun e => e.1 = findField f.body (ascii "id")) = some e) :
    Inv { s.eraseId (findField f.body (ascii "id")) with reader := .toFill n e.2 } := by
  obtain ⟨hlast, f', hf', hresponse⟩ := hs.matching n hn
  obtain rfl : f = f' := Option.some.inj (hf.symm.trans hf')
  obtain ⟨hk, hid⟩ := hs.table e (List.mem_of_find?_eq_some he)
  have hmine : e.1 = f.id.bytes := by
    have hfound : e.1 = findField f.body (ascii "id") := by simpa using List.find?_some he
    rw [hfound, f.findField_id]
  apply hs.turn (fun e he => mem_eraseId he)
  · exact fun _ h => by cases h
  · intro m k hm
    cases hm
    exact ⟨hlast, hk, f, hf, hresponse, hmine.symm.trans hid⟩
  · exact fun _ h => by cases h

/-- What filling or failing a slot changes of the calls. -/
theorem setCall_keeps {s : Exchange} {k : Nat} {c : Call} (hid : c.id = (s.call k).id)
    (hrequest : c.request = (s.call k).request) (j : Nat) :
    ((s.setCall k c).call j).id = (s.call j).id ∧
      ((s.setCall k c).call j).request = (s.call j).request := by
  by_cases hj : j = k
  · rw [hj, setCall_same]
    exact ⟨hid, hrequest⟩
  · rw [setCall_other s hj]
    exact ⟨rfl, rfl⟩

/-- A slot gets what its call may return. -/
theorem Inv.setSlot {s : Exchange} (hs : Inv s) {k : Nat} (hk : k < s.count) {c : Call}
    (hid : c.id = (s.call k).id) (hrequest : c.request = (s.call k).request)
    (hresult : c.result = (s.call k).result) (hpc : c.pc = (s.call k).pc)
    (hresponse : Delivers s k c.response ∨ Woken c.response)
    (hdetail : c.response.errorDetail = [] ∨
      c.response.errorDetail = ascii "bridge disconnected") :
    Inv (s.setCall k c) := by
  have hkeeps := fun j => setCall_keeps (s := s) hid hrequest j
  constructor
  · exact hs.next
  · exact hs.few
  · intro j hj
    rw [(hkeeps j).1]
    exact hs.ids j hj
  · intro j
    rw [(hkeeps j).1, (hkeeps j).2]
    exact hs.requests j
  · intro j hj
    have hjk : j ≠ k := by
      intro heq
      rw [heq] at hj
      exact absurd hk (Nat.not_lt.mpr hj)
    rw [setCall_other s hjk]
    exact hs.unborn j hj
  · intro e he
    rw [(hkeeps e.2).1]
    exact hs.table e he
  · intro n hn
    obtain ⟨hlast, f, hf⟩ := hs.matching n hn
    exact ⟨⟨hlast.last, hlast.kept⟩, f, hf⟩
  · intro n j hn
    obtain ⟨hlast, hj, f, hf⟩ := hs.filling n j hn
    exact ⟨⟨hlast.last, hlast.kept⟩, hj, f, hf.mono List.prefix_rfl (hkeeps j).1⟩
  · exact hs.waking
  · intro n j hn
    obtain ⟨hj, f, hf⟩ := hs.delivered n j hn
    exact ⟨hj, f, hf.mono List.prefix_rfl (hkeeps j).1⟩
  · exact hs.once
  · intro j hj
    by_cases hjk : j = k
    · rw [hjk, setCall_same, hpc]
      exact hs.born k hk
    · rw [setCall_other s hjk]
      exact hs.born j hj
  · intro j hj
    by_cases hjk : j = k
    · rw [hjk, setCall_same]
      exact hresponse
    · rw [setCall_other s hjk] at hj ⊢
      exact hs.filled j hj
  · intro j
    by_cases hjk : j = k
    · rw [hjk, setCall_same]
      exact hdetail
    · rw [setCall_other s hjk]
      exact hs.details j
  · intro j hj
    by_cases hjk : j = k
    · rw [hjk, setCall_same, hpc] at hj
      rw [hjk, setCall_same, hresult]
      exact hs.ended k hj
    · rw [setCall_other s hjk] at hj ⊢
      exact hs.ended j hj
  · intro j resp hj
    by_cases hjk : j = k
    · rw [hjk, setCall_same, hresult] at hj
      rw [hjk]
      exact hs.answered k resp hj
    · rw [setCall_other s hjk] at hj
      exact hs.answered j resp hj

theorem Inv.deliver {s : Exchange} (hs : Inv s) {n k : Nat} (hn : s.reader = .toFill n k) :
    Inv { s with reader := .reading, deliveries := (n, k) :: s.deliveries } := by
  obtain ⟨hlast, hk, f, hf⟩ := hs.filling n k hn
  refine ⟨hs.next, hs.few, hs.ids, hs.requests, hs.unborn, hs.table, ?_, ?_, ?_, ?_, ?_, hs.born,
    ?_, hs.details, hs.ended, ?_⟩
  · exact fun _ h => by cases h
  · exact fun _ _ h => by cases h
  · exact fun _ h => by cases h
  · intro m j hm
    rcases List.mem_cons.mp hm with hnew | hold
    · cases hnew
      exact ⟨hk, f, hf.mono List.prefix_rfl rfl⟩
    · obtain ⟨hj, f', hf'⟩ := hs.delivered m j hold
      exact ⟨hj, f', hf'.mono List.prefix_rfl rfl⟩
  · refine List.nodup_cons.mpr ⟨?_, hs.once⟩
    intro hmem
    obtain ⟨d, hd, hdn⟩ := List.mem_map.mp hmem
    exact absurd (hlast.kept d hd) (by simp only at hdn; omega)
  · exact fun j hj => (hs.filled j hj).imp_left fun hd =>
      hd.mono List.prefix_rfl fun _ hd => List.mem_cons_of_mem _ hd
  · exact fun j resp hj => (hs.answered j resp hj).imp_left fun hd =>
      hd.mono List.prefix_rfl fun _ hd => List.mem_cons_of_mem _ hd

theorem Inv.fill {s : Exchange} (hs : Inv s) {n k : Nat} (hn : s.reader = .toFill n k)
    {f : ServerFrame} (hf : s.received[n]? = some f) : Inv (s.fill n k f.body) := by
  obtain ⟨-, hk, -⟩ := hs.filling n k hn
  have hdelivered := hs.deliver hn
  apply hdelivered.setSlot hk
  · rfl
  · rfl
  · rfl
  · rfl
  · exact Or.inl ⟨n, f, List.mem_cons_self .., hf, rfl, rfl⟩
  · exact hdelivered.details k

theorem Inv.readerStep {s t : Exchange} (hs : Inv s) (h : s.readerStep = some t) : Inv t := by
  unfold Exchange.readerStep at h
  cases hreader : s.reader with
  | stopped =>
    rw [hreader] at h
    cases h
  | reading =>
    rw [hreader] at h
    cases h
  | toMatch n =>
    rw [hreader] at h
    obtain ⟨f, hf, hstep⟩ := Option.map_eq_some_iff.mp h
    simp only at hstep
    cases hfind : s.pending.find? fun e => e.1 = findField f.body (ascii "id") with
    | some e =>
      rw [hfind] at hstep
      subst hstep
      exact hs.lookup hreader hf hfind
    | none =>
      rw [hfind] at hstep
      subst hstep
      exact hs.idle (fun e he => he) (Or.inl rfl)
  | toFill n k =>
    rw [hreader] at h
    simp only at h
    split_ifs at h with hgave
    obtain ⟨f, hf, rfl⟩ := Option.map_eq_some_iff.mp h
    exact hs.fill hreader hf
  | closing rest =>
    rw [hreader] at h
    cases rest with
    | nil =>
      cases h
      exact hs.idle (fun e he => absurd he List.not_mem_nil) (Or.inr rfl)
    | cons k rest => cases h

theorem Inv.wake {s : Exchange} (hs : Inv s) {rest : List Nat} (hrest : s.reader = .closing rest)
    {k : Nat} (hk : k ∈ rest) : Inv { s.fail k with reader := .closing (rest.erase k) } := by
  have hcount := hs.waking rest hrest
  have hfailed : Inv (s.fail k) := by
    apply hs.setSlot (hcount k hk)
    · rfl
    · rfl
    · rfl
    · rfl
    · exact Or.inr ⟨rfl, rfl⟩
    · exact Or.inr rfl
  apply hfailed.turn (fun e he => he)
  · exact fun _ h => by cases h
  · exact fun _ _ h => by cases h
  · intro left hleft j hj
    cases hleft
    exact hcount j (List.mem_of_mem_erase hj)

/-- There are fewer than 2^64 calls. -/
def FewCalls (s : Exchange) : Exchange.Action → Prop
  | .call _ => s.count + 1 < 2 ^ 64
  | _ => True

/-- The reader wakes the slot of a call that is not waiting for the table. -/
theorem wake_cases {s t : Exchange} {k : Nat} (h : s.step (.wake k) = some t) :
    ∃ rest, s.reader = .closing rest ∧ k ∈ rest ∧ (s.call k).pc ≠ .gaveUp ∧
      t = { s.fail k with reader := .closing (rest.erase k) } := by
  simp only [Exchange.step] at h
  cases hreader : s.reader with
  | closing rest =>
    rw [hreader] at h
    simp only at h
    split_ifs at h with hk
    cases h
    exact ⟨rest, rfl, hk.1, hk.2, rfl⟩
  | stopped => rw [hreader] at h; cases h
  | reading => rw [hreader] at h; cases h
  | toMatch n => rw [hreader] at h; cases h
  | toFill n j => rw [hreader] at h; cases h

theorem inv_step {s t : Exchange} (hs : Inv s) {a : Exchange.Action} (ha : FewCalls s a)
    (h : s.step a = some t) : Inv t := by
  cases a with
  | call args =>
    cases h
    exact hs.beginCall ha args
  | caller k flag => exact hs.callAdvance (callerStep_move h)
  | connect =>
    simp only [Exchange.step] at h
    split_ifs at h
    cases h
    exact hs.idle (fun e he => he) (Or.inl rfl)
  | receive f =>
    simp only [Exchange.step] at h
    split_ifs at h with hreading
    cases h
    exact hs.receive hreading f
  | disconnect =>
    simp only [Exchange.step] at h
    split_ifs at h
    cases h
    exact hs.close
  | reader => exact hs.readerStep h
  | wake k =>
    obtain ⟨rest, hreader, hk, -, rfl⟩ := wake_cases h
    exact hs.wake hreader hk

theorem Inv.id_injective {s : Exchange} (hs : Inv s) {j k : Nat} (hj : j < s.count)
    (hk : k < s.count) (h : (s.call j).id = (s.call k).id) : j = k := by
  rw [hs.ids j hj, hs.ids k hk] at h
  have hnat := congrArg UInt64.toNat (makeId_injective h)
  have hfew := hs.few
  rw [UInt64.toNat_ofNat', UInt64.toNat_ofNat', Nat.mod_eq_of_lt (by omega),
    Nat.mod_eq_of_lt (by omega)] at hnat
  omega

end AtmXfs.Bridge
