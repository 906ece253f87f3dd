import AtmXfs.Bridge.Correlation
import AtmXfs.Bridge.HandleFrame
import AtmXfs.Dll.EventRouter
import AtmXfs.Dll.Payload
import AtmXfs.Dll.PinEntry
import AtmXfs.Lib.JsonLocal

namespace AtmXfs.Bridge

open Js JsonText Dll
open Framing (Bytes)

/-- The command that `handleFrame` hands to `manager.execute`, each member as the frame has it. -/
structure BridgeCommand where
  hService : Option Json
  serviceClass : Option Json
  commandCode : Option Json
  requestId : Option Json
  timeoutMs : Nat
  payload : Option Json

def commandOf (frame : Json) : BridgeCommand where
  hService := frame.get (utf16 "hService")
  serviceClass := frame.get (utf16 "service")
  commandCode := frame.get (utf16 "commandCode")
  requestId := frame.get (utf16 "id")
  timeoutMs := 30000
  payload := frame.get (utf16 "payload")

/-- A text that is read as it is written. -/
def plainJson (t : PlainText) : Json := .str (chars t.bytes)

theorem readBack_plain (t : PlainText) : writerEscape.readBack t.bytes = some (chars t.bytes) := by
  rw [readBack_iff_isClean]
  intro b hb
  obtain ⟨hlow, hhigh, -, -⟩ := t.plain b hb
  simp [isClean, hlow, hhigh]

theorem text_plain (t : PlainText) : writerEscape.text t.bytes = t.bytes := by
  apply writerEscape.text_eq_self
  intro b hb
  obtain ⟨hlow, -, hquote, hslash⟩ := t.plain b hb
  have hline : b ≠ 0x0a ∧ b ≠ 0x0d ∧ b ≠ 0x09 := by
    refine ⟨?_, ?_, ?_⟩ <;> rintro rfl <;> exact absurd hlow (by decide)
  simp [writerEscape, Writer.escapeByte, hquote, hslash, hline]

theorem reads_plain (t : PlainText) : Reads t.quoted (some (plainJson t)) := by
  have hread := reads_str writerEscape t.bytes
  rw [text_plain, readBack_plain] at hread
  exact hread

/-- A member of a request with a text for its value. -/
def textEntry (name : String) (t : PlainText) : Entry :=
  ⟨ascii name, some (utf16 name), t.quoted, some (plainJson t)⟩

theorem readable_name {name : String} (hname : (ascii name).all (fun b => isClean b) = true)
    (hplain : (ascii name).all (fun b => Writer.escapeByte b = [b]) = true)
    (hchars : chars (ascii name) = utf16 name) (more : Bytes) :
    str .char (ascii name ++ 0x22 :: more) = some (utf16 name, more) := by
  have hread := writerEscape.str_readBack (ascii name) more
  rw [text_name hplain, readBack_name ⟨hname, hchars⟩] at hread
  exact hread

/-- The members of a request, in the order in which they are written. -/
def requestEntries (id op service hService commandCode : PlainText) (payload : Bytes) (v : Json) :
    List Entry :=
  [textEntry "type" requestText, textEntry "id" id, textEntry "ts" ⟨[], by decide⟩,
    textEntry "op" op, textEntry "service" service, textEntry "hService" hService,
    textEntry "commandCode" commandCode, ⟨ascii "payload", some (utf16 "payload"), payload, some v⟩]

/-- What the server reads from a request. -/
def requestFrame (id op service hService commandCode : PlainText) (v : Json) : Json :=
  .obj [(utf16 "type", plainJson requestText), (utf16 "id", plainJson id), (utf16 "ts", .str []),
    (utf16 "op", plainJson op), (utf16 "service", plainJson service),
    (utf16 "hService", plainJson hService),
    (utf16 "commandCode", plainJson commandCode), (utf16 "payload", v)]

theorem requestBody_eq (id op service hService commandCode : PlainText) {payload : Bytes}
    (hne : payload ≠ []) (v : Json) :
    requestBody id.bytes ⟨op.bytes, service.bytes, hService.bytes, commandCode.bytes, payload⟩ =
      0x7b :: writeEntries (requestEntries id op service hService commandCode payload v) ++
        [0x7d] := by
  have htype : ascii "\x7b\"type\":\"request\"," =
      0x7b :: ((textEntry "type" requestText).write ++ [0x2c]) := by decide +kernel
  have hid : ascii "\"id\":\"" = 0x22 :: (ascii "id" ++ [0x22, 0x3a, 0x22]) := by decide +kernel
  have hts : ascii "\"ts\":\"\"," = (textEntry "ts" ⟨[], by decide⟩).write ++ [0x2c] := by
    decide +kernel
  have hop : ascii "\"op\":\"" = 0x22 :: (ascii "op" ++ [0x22, 0x3a, 0x22]) := by decide +kernel
  have hservice : ascii "\"service\":\"" = 0x22 :: (ascii "service" ++ [0x22, 0x3a, 0x22]) := by
    decide +kernel
  have hhService : ascii "\"hService\":\"" =
      0x22 :: (ascii "hService" ++ [0x22, 0x3a, 0x22]) := by decide +kernel
  have hcode : ascii "\"commandCode\":\"" =
      0x22 :: (ascii "commandCode" ++ [0x22, 0x3a, 0x22]) := by decide +kernel
  have hpayload : ascii "\"payload\":" = 0x22 :: (ascii "payload" ++ [0x22, 0x3a]) := by
    decide +kernel
  have hquote : ascii "\"," = [0x22, 0x2c] := rfl
  have hbrace : ascii "\x7d" = [0x7d] := rfl
  rw [requestBody, htype, hid, hts, hop, hservice, hhService, hcode, hpayload, hquote, hbrace]
  simp only [if_neg hne, requestEntries, writeEntries, Entry.write, textEntry, PlainText.quoted,
    List.cons_append, List.append_assoc, List.nil_append]

/-- The server reads of a request what it was written from, whatever its payload. -/
theorem parse_requestBody (id op service hService commandCode : PlainText) {payload : Bytes}
    {v : Json} (hpayload : Reads payload (some v)) (hne : payload ≠ []) :
    parse (requestBody id.bytes
      ⟨op.bytes, service.bytes, hService.bytes, commandCode.bytes, payload⟩) =
        some (requestFrame id op service hService commandCode v) := by
  have htext : ∀ (name : String) (t : PlainText), (ascii name).all (fun b => isClean b) = true →
      (ascii name).all (fun b => Writer.escapeByte b = [b]) = true →
      chars (ascii name) = utf16 name → (textEntry name t).Readable :=
    fun name t hclean hplain hchars => ⟨readable_name hclean hplain hchars, reads_plain t⟩
  have hreadable : ∀ e ∈ requestEntries id op service hService commandCode payload v,
      e.Readable := by
    intro e he
    simp only [requestEntries, List.mem_cons, List.not_mem_nil, or_false] at he
    rcases he with rfl | rfl | rfl | rfl | rfl | rfl | rfl | rfl
    · exact htext _ _ (by decide) (by decide) (by decide)
    · exact htext _ _ (by decide) (by decide) (by decide)
    · exact htext _ _ (by decide) (by decide) (by decide)
    · exact htext _ _ (by decide) (by decide) (by decide)
    · exact htext _ _ (by decide) (by decide) (by decide)
    · exact htext _ _ (by decide) (by decide) (by decide)
    · exact htext _ _ (by decide) (by decide) (by decide)
    · exact ⟨readable_name (by decide) (by decide) (by decide), hpayload⟩
  have hread := parse_of_reads (reads_obj hreadable)
  rw [requestBody_eq id op service hService commandCode hne v, hread]
  simp only [requestEntries, textEntry, readEntries, Entry.read, Option.bind_some,
    Option.map_some, requestFrame]
  rw [ownMembers_of_nodup (by simp only [List.map_cons, List.map_nil]; decide)]
  rfl

section

variable (id op service hService commandCode : PlainText) (v : Json)

theorem commandOf_requestFrame :
    commandOf (requestFrame id op service hService commandCode v) =
      ⟨some (plainJson hService), some (plainJson service), some (plainJson commandCode),
        some (plainJson id), 30000, some v⟩ := rfl

theorem isText_plainJson (t : PlainText) (s : Text) :
    Json.isText (some (plainJson t)) s = decide (chars t.bytes = s) := rfl

/-- A request comes through to the handler of its op. -/
theorem handleFrame_requestFrame (numberText : Number → Text) (services : List Service) :
    handleFrame numberText services (some (requestFrame id op service hService commandCode v)) =
      handleRequest numberText services (requestFrame id op service hService commandCode v) := by
  have htype : (requestFrame id op service hService commandCode v).get (utf16 "type") =
      some (plainJson requestText) := rfl
  have hping : Json.isText (some (plainJson requestText)) (utf16 "ping") = false := by decide
  have hrequest : Json.isText (some (plainJson requestText)) (utf16 "request") = true := by decide
  obtain ⟨members, hobj⟩ : ∃ members,
      requestFrame id op service hService commandCode v = .obj members := ⟨_, rfl⟩
  rw [hobj] at htype ⊢
  simp only [handleFrame, htype, hping, hrequest, Bool.false_eq_true, if_false, if_true]

/-- A request to execute is handed to the manager. -/
theorem handleFrame_execute (numberText : Number → Text) (services : List Service)
    (hop : op.bytes = ascii "WFPExecute") :
    handleFrame numberText services (some (requestFrame id op service hService commandCode v)) =
      .executing (some (plainJson id)) := by
  have hget : (requestFrame id op service hService commandCode v).get (utf16 "op") =
      some (plainJson op) := rfl
  have hid : (requestFrame id op service hService commandCode v).get (utf16 "id") =
      some (plainJson id) := rfl
  have hchars : chars op.bytes = utf16 "WFPExecute" := by
    rw [hop]
    decide
  rw [handleFrame_requestFrame, handleRequest]
  simp only [hget, hid, isText_plainJson, hchars]
  rw [if_neg (by decide), if_neg (by decide), if_pos (by decide)]

/-- A request to open is answered with the first service of its class, if there is one. -/
theorem handleFrame_open (numberText : Number → Text) (services : List Service)
    (hop : op.bytes = ascii "WFPOpen") :
    handleFrame numberText services (some (requestFrame id op service hService commandCode v)) =
      match services.find? fun s => decide (chars service.bytes = s.serviceClass) with
      | none => .settled [refuse numberText (some (plainJson id)) (-9)
          (utf16 "no service of class ") (some (plainJson service))]
      | some s => .settled [.response (some (plainJson id)) 0
          (some (.obj [(utf16 "hService", .str s.hService)])) none] := by
  have hget : (requestFrame id op service hService commandCode v).get (utf16 "op") =
      some (plainJson op) := rfl
  have hid : (requestFrame id op service hService commandCode v).get (utf16 "id") =
      some (plainJson id) := rfl
  have hclass : (requestFrame id op service hService commandCode v).get (utf16 "service") =
      some (plainJson service) := rfl
  have hchars : chars op.bytes = utf16 "WFPOpen" := by
    rw [hop]
    decide
  rw [handleFrame_requestFrame, handleRequest]
  simp only [hget, hid, hclass]
  rw [isText_plainJson, hchars, if_pos (by decide), ← List.head?_filter]
  have hfilter : (services.filter fun s => Json.isText (some (plainJson service)) s.serviceClass) =
      services.filter fun s => decide (chars service.bytes = s.serviceClass) := rfl
  rw [hfilter]
  cases services.filter fun s => decide (chars service.bytes = s.serviceClass) <;> rfl

end

/-- The payload of the response to WFPOpen, as `JSON.stringify` writes it. -/
def openPayload (hService : PlainText) : Bytes :=
  0x7b :: (hServiceName.searched ++ (hService.quoted ++ [0x7d]))

/-- The client finds the handle of the service in the response. -/
theorem findField_openPayload (id ts hService : PlainText) :
    findField (successFrame id ts (openPayload hService)) (ascii "hService") = hService.bytes := by
  have hzero : ∀ b ∈ ascii "0,", b ≠ 0x22 := by decide
  have hfound : afterFirst hServiceName.searched (successFrame id ts (openPayload hService)) =
      some (0x22 :: (hService.bytes ++ 0x22 :: [0x7d, 0x7d])) := by
    rw [successFrame, afterFirst_frameHead (by decide) (by decide) (by decide),
      afterFirst_name (by decide), afterFirst_noQuote hzero, afterFirst_name (by decide),
      openPayload, List.cons_append, afterFirst_other (by decide), List.append_assoc,
      afterFirst_found, PlainText.quoted, List.cons_append, List.append_assoc, List.cons_append,
      List.append_assoc]
    rfl
  exact findField_found hService.noQuote hfound

end AtmXfs.Bridge
