import AtmXfs.Bridge.Frames
import AtmXfs.Bridge.Request
import AtmXfs.Dll.PrintForm
import AtmXfs.Lib.Observers

namespace AtmXfs.Dll

open Js JsonText Bridge
open Framing (Bytes)

/-- `codes()`, by service class and number. -/
def codes : List (String × String) :=
  [("IDC:101", "WFS_CMD_IDC_READ_RAW_DATA"), ("IDC:102", "WFS_CMD_IDC_WRITE_TRACK"),
   ("IDC:103", "WFS_CMD_IDC_EJECT_CARD"), ("IDC:104", "WFS_CMD_IDC_RETAIN_CARD"),
   ("IDC:105", "WFS_CMD_IDC_RESET_COUNT"), ("IDC:106", "WFS_CMD_IDC_RESET"),
   ("IDC:107", "WFS_CMD_IDC_CHIP_IO"), ("IDC:108", "WFS_CMD_IDC_CHIP_POWER"),
   ("IDC:120", "WFS_CMD_IDC_READ_TRACK"),
   ("PIN:201", "WFS_CMD_PIN_GET_PIN"), ("PIN:202", "WFS_CMD_PIN_GET_PINBLOCK"),
   ("PIN:203", "WFS_CMD_PIN_GET_DATA"), ("PIN:204", "WFS_CMD_PIN_RESET"),
   ("PIN:205", "WFS_CMD_PIN_IMPORT_KEY"), ("PIN:206", "WFS_CMD_PIN_GET_KEY_DETAIL"),
   ("CDM:301", "WFS_CMD_CDM_DISPENSE"), ("CDM:302", "WFS_CMD_CDM_PRESENT"),
   ("CDM:303", "WFS_CMD_CDM_REJECT"), ("CDM:304", "WFS_CMD_CDM_RETRACT"),
   ("CDM:305", "WFS_CMD_CDM_COUNT"), ("CDM:306", "WFS_CMD_CDM_CASH_UNIT_INFO"),
   ("CDM:307", "WFS_CMD_CDM_START_EXCHANGE"), ("CDM:308", "WFS_CMD_CDM_END_EXCHANGE"),
   ("CDM:309", "WFS_CMD_CDM_RESET"),
   ("PTR:401", "WFS_CMD_PTR_PRINT_FORM"), ("PTR:402", "WFS_CMD_PTR_RAW_DATA"),
   ("PTR:403", "WFS_CMD_PTR_CUT_PAPER"), ("PTR:404", "WFS_CMD_PTR_RESET")]

/-- `command_code_for`, empty for a command that there is not. -/
def commandCodeFor (service : Bytes) (dwCommand : UInt32) : Bytes :=
  match codes.find? fun c =>
      ascii c.1 = service ++ ascii ":" ++ decimalBytes dwCommand.toNat with
  | none => []
  | some c => ascii c.2

def jsonStringField (body key : Bytes) : Bytes := findField body key

structure ServiceBinding where
  serviceClass : Bytes
  hService : Bytes

/-- The tables of the DLL for handles `H` and windows `W`: `g_services` and the event router. -/
structure Provider (H W : Type) where
  services : H → Option ServiceBinding
  router : EventRouter H W

/-- A call of the XFS manager, with the answer to the request that it sends. What `lpCmdData`
points at is read as the structure that belongs to the command. -/
inductive WfpCall (H W : Type) where
  | wfpOpen (h : H) (lpszLogicalName : Option Bytes) (resp : BridgeResponse)
  | wfpClose (h : H) (resp : BridgeResponse)
  | wfpGetInfo (h : H) (resp : BridgeResponse)
  | wfpExecute (h : H) (dwCommand : UInt32) (lpCmdData : (struct : Struct) → Option struct.Data)
      (resp : BridgeResponse)
  | wfpRegister (h : H) (dwEventClass : UInt32) (hWndReg : W)
  | wfpDeregister (h : H) (dwEventClass : UInt32) (hWndReg : W)

variable {H W : Type} [DecidableEq H] [DecidableEq W]

namespace Provider

def start : Provider H W := ⟨fun _ => none, .new⟩

/-- The handle of the service on the server, empty for a handle that is not open. -/
def hServiceOf (p : Provider H W) (h : H) : Bytes := ((p.services h).map (·.hService)).getD []

/-- What is sent for a call, if anything. -/
def request (p : Provider H W) : WfpCall H W → Option RequestArgs
  | .wfpOpen _ name _ =>
    some ⟨ascii "WFPOpen", name.getD [], [], [], ascii "\x7b\x7d"⟩
  | .wfpClose h _ => some ⟨ascii "WFPClose", [], p.hServiceOf h, [], ascii "\x7b\x7d"⟩
  | .wfpGetInfo h _ => some ⟨ascii "WFPGetInfo", [], p.hServiceOf h, [], ascii "\x7b\x7d"⟩
  | .wfpExecute h dwCommand lpCmdData _ =>
    match p.services h with
    | none => none
    | some b =>
      let code := commandCodeFor b.serviceClass dwCommand
      if code = [] then none
      else some ⟨ascii "WFPExecute", b.serviceClass, b.hService, code,
        payloadToJson b.serviceClass dwCommand (lpCmdData (structOf b.serviceClass dwCommand))⟩
  | .wfpRegister _ _ _ => none
  | .wfpDeregister _ _ _ => none

/-- The HRESULT of a call. -/
def result (p : Provider H W) : WfpCall H W → Int
  | .wfpOpen _ _ resp => resp.result
  | .wfpClose _ resp => resp.result
  | .wfpGetInfo _ resp => resp.result
  | .wfpExecute h dwCommand _ resp =>
    match p.services h with
    | none => -4
    | some b => if commandCodeFor b.serviceClass dwCommand = [] then -8 else resp.result
  | .wfpRegister _ _ _ => 0
  | .wfpDeregister _ _ _ => 0

def step (p : Provider H W) : WfpCall H W → Option (Provider H W)
  | .wfpOpen h name resp =>
    if resp.result = 0 then
      let h_service := jsonStringField resp.payloadJson (ascii "hService")
      some { p with services := Function.update p.services h (some ⟨name.getD [], h_service⟩) }
    else some p
  | .wfpClose h _ =>
    some ⟨Function.update p.services h none, p.router.clearService h⟩
  | .wfpGetInfo _ _ => some p
  | .wfpExecute _ _ _ _ => some p
  | .wfpRegister h dwEventClass hWndReg =>
    some { p with router := p.router.registerWindow h (p.hServiceOf h) hWndReg dwEventClass }
  | .wfpDeregister h dwEventClass hWndReg =>
    some { p with router := p.router.deregisterWindow h hWndReg dwEventClass }

end Provider

/-- The call opens the handle anew or closes it. -/
def WfpCall.rebinds (h : H) : WfpCall H W → Bool
  | .wfpOpen h' _ resp => h' = h && resp.result = 0
  | .wfpClose h' _ => h' = h
  | _ => false

/-- The last call that concerns the binding of the handle opened it, so. -/
def OpenedAs (calls : List (WfpCall H W)) (h : H) (name : Option Bytes) (resp : BridgeResponse) :
    Prop :=
  ∃ before after, calls = before ++ .wfpOpen h name resp :: after ∧ resp.result = 0 ∧
    ∀ c ∈ after, c.rebinds h = false

theorem services_step {p p' : Provider H W} {c : WfpCall H W} (hstep : p.step c = some p') (h : H) :
    (c.rebinds h = false ∧ p'.services h = p.services h) ∨
    (∃ name resp, c = .wfpOpen h name resp ∧ resp.result = 0 ∧ p'.services h =
      some ⟨name.getD [], jsonStringField resp.payloadJson (ascii "hService")⟩) ∨
    ∃ resp, c = .wfpClose h resp ∧ p'.services h = none := by
  cases c with
  | wfpOpen h' name resp =>
    rw [Provider.step] at hstep
    split_ifs at hstep with hok
    · cases hstep
      by_cases hsame : h' = h
      · subst hsame
        exact .inr (.inl ⟨name, resp, rfl, hok, Function.update_self ..⟩)
      · refine .inl ⟨by simp [WfpCall.rebinds, hsame], ?_⟩
        exact Function.update_of_ne (Ne.symm hsame) ..
    · cases hstep
      exact .inl ⟨by simp [WfpCall.rebinds, hok], rfl⟩
  | wfpClose h' resp =>
    cases hstep
    by_cases hsame : h' = h
    · subst hsame
      exact .inr (.inr ⟨resp, rfl, Function.update_self ..⟩)
    · refine .inl ⟨by simp [WfpCall.rebinds, hsame], ?_⟩
      exact Function.update_of_ne (Ne.symm hsame) ..
  | wfpGetInfo h' resp =>
    cases hstep
    exact .inl ⟨rfl, rfl⟩
  | wfpExecute h' dwCommand lpCmdData resp =>
    cases hstep
    exact .inl ⟨rfl, rfl⟩
  | wfpRegister h' dwEventClass hWndReg =>
    cases hstep
    exact .inl ⟨rfl, rfl⟩
  | wfpDeregister h' dwEventClass hWndReg =>
    cases hstep
    exact .inl ⟨rfl, rfl⟩

omit [DecidableEq W] in
/-- A call more leaves the last opening as it was, or is it, or undoes it. -/
theorem openedAs_snoc {calls : List (WfpCall H W)} {c : WfpCall H W} {h : H} {name : Option Bytes}
    {resp : BridgeResponse} : OpenedAs (calls ++ [c]) h name resp ↔
      (c = .wfpOpen h name resp ∧ resp.result = 0) ∨
        (c.rebinds h = false ∧ OpenedAs calls h name resp) := by
  constructor
  · rintro ⟨before, after, hsplit, hok, hafter⟩
    rcases List.eq_nil_or_concat after with rfl | ⟨front, last, rfl⟩
    · obtain ⟨-, hlast⟩ := List.append_inj' hsplit rfl
      exact .inl ⟨(List.cons.inj hlast).1, hok⟩
    · rw [List.concat_eq_append] at hsplit hafter
      rw [← List.cons_append, ← List.append_assoc] at hsplit
      obtain ⟨hfront, hlast⟩ := List.append_inj' hsplit rfl
      cases hlast
      refine .inr ⟨hafter c (by simp), before, front, hfront, hok, fun d hd => ?_⟩
      exact hafter d (List.mem_append_left _ hd)
  · rintro (⟨rfl, hok⟩ | ⟨hc, before, after, rfl, hok, hafter⟩)
    · exact ⟨calls, [], rfl, hok, fun d hd => absurd hd List.not_mem_nil⟩
    · refine ⟨before, after ++ [c], by simp, hok, fun d hd => ?_⟩
      rcases List.mem_append.mp hd with hd | hd
      · exact hafter d hd
      · rw [List.mem_singleton.mp hd]
        exact hc

/-- A handle is bound as the last call that concerns it says. -/
theorem services_of_run {calls : List (WfpCall H W)} {p : Provider H W}
    (hrun : Runs.exec Provider.step .start calls = some p) (h : H) (b : ServiceBinding) :
    p.services h = some b ↔ ∃ name resp, OpenedAs calls h name resp ∧
      b = ⟨name.getD [], jsonStringField resp.payloadJson (ascii "hService")⟩ := by
  induction calls using List.reverseRecOn generalizing p with
  | nil =>
    cases hrun
    refine iff_of_false nofun ?_
    rintro ⟨name, resp, ⟨before, after, hsplit, -, -⟩, -⟩
    exact absurd hsplit.symm (by simp)
  | append_singleton calls c ih =>
    obtain ⟨q, hq, hstep⟩ := Runs.exec_snoc hrun
    rcases services_step hstep h with ⟨hc, hsame⟩ | ⟨name, resp, rfl, hok, hbound⟩ |
      ⟨resp, rfl, hnone⟩
    · rw [hsame, ih hq]
      refine exists₂_congr fun name resp => and_congr_left' ?_
      rw [openedAs_snoc]
      constructor
      · exact fun hopen => .inr ⟨hc, hopen⟩
      · rintro (⟨rfl, hok⟩ | ⟨-, hopen⟩)
        · simp [WfpCall.rebinds, hok] at hc
        · exact hopen
    · rw [hbound]
      constructor
      · rintro heq
        cases heq
        exact ⟨name, resp, openedAs_snoc.mpr (.inl ⟨rfl, hok⟩), rfl⟩
      · rintro ⟨name', resp', hopen, rfl⟩
        rcases openedAs_snoc.mp hopen with ⟨heq, -⟩ | ⟨hc, -⟩
        · cases heq
          rfl
        · simp [WfpCall.rebinds, hok] at hc
    · rw [hnone]
      refine iff_of_false nofun ?_
      rintro ⟨name', resp', hopen, -⟩
      rcases openedAs_snoc.mp hopen with ⟨heq, -⟩ | ⟨hc, -⟩
      · cases heq
      · simp [WfpCall.rebinds] at hc

/-- The successful answer to WFPOpen is the response of the bridge to the very request. -/
def FromBridge (numberText : Number → Text) (services : List Service) (name : Option Bytes)
    (resp : BridgeResponse) : Prop :=
  ∃ id ts cls hs : PlainText, name.getD [] = cls.bytes ∧
    handleFrame numberText services
        (parse (requestBody id.bytes ⟨ascii "WFPOpen", cls.bytes, [], [], ascii "\x7b\x7d"⟩)) =
      .settled [.response (some (plainJson id)) 0
        (some (.obj [(utf16 "hService", plainJson hs)])) none] ∧
    resp.payloadJson = successFrame id ts (openPayload hs)

theorem plain_nil : ∀ b ∈ ([] : Bytes), 0x20 ≤ b ∧ b < 0x80 ∧ b ≠ 0x22 ∧ b ≠ 0x5c :=
  fun _ h => absurd h List.not_mem_nil

def emptyText : PlainText := ⟨[], plain_nil⟩

theorem plain_idcText : ∀ b ∈ ascii "IDC30", 0x20 ≤ b ∧ b < 0x80 ∧ b ≠ 0x22 ∧ b ≠ 0x5c := by
  decide

def idcText : PlainText := ⟨ascii "IDC30", plain_idcText⟩

theorem plain_pinText : ∀ b ∈ ascii "PIN30", 0x20 ≤ b ∧ b < 0x80 ∧ b ≠ 0x22 ∧ b ≠ 0x5c := by
  decide

def pinText : PlainText := ⟨ascii "PIN30", plain_pinText⟩

theorem reads_empty : Reads (ascii "\x7b\x7d") (some (.obj [])) :=
  reads_of_parse parse_empty rfl (by decide)

/-- The bridge answers with the first service of the class, or refuses. -/
theorem find_of_open {numberText : Number → Text} {services : List Service}
    {id cls hs : PlainText} (h : handleFrame numberText services
        (parse (requestBody id.bytes ⟨ascii "WFPOpen", cls.bytes, [], [], ascii "\x7b\x7d"⟩)) =
      .settled [.response (some (plainJson id)) 0
        (some (.obj [(utf16 "hService", plainJson hs)])) none]) :
    ∃ s, services.find? (fun s => decide (chars cls.bytes = s.serviceClass)) = some s ∧
      s.hService = chars hs.bytes := by
  have hop : ∀ b ∈ ascii "WFPOpen", 0x20 ≤ b ∧ b < 0x80 ∧ b ≠ 0x22 ∧ b ≠ 0x5c := by decide
  have hparse := parse_requestBody id ⟨ascii "WFPOpen", hop⟩ cls emptyText emptyText reads_empty
    (by decide)
  have hsame : requestBody id.bytes ⟨ascii "WFPOpen", cls.bytes, [], [], ascii "\x7b\x7d"⟩ =
      requestBody id.bytes ⟨ascii "WFPOpen", cls.bytes, emptyText.bytes, emptyText.bytes,
        ascii "\x7b\x7d"⟩ := rfl
  rw [hsame, hparse, handleFrame_open _ _ _ _ _ _ numberText services rfl] at h
  cases hfind : services.find? fun s => decide (chars cls.bytes = s.serviceClass) with
  | none =>
    rw [hfind] at h
    simp only [refuse] at h
    split at h <;> cases h
  | some s =>
    rw [hfind] at h
    refine ⟨s, rfl, ?_⟩
    simpa [plainJson] using h

theorem plain_commandCodeFor (service : Bytes) (dwCommand : UInt32) :
    ∀ b ∈ commandCodeFor service dwCommand, 0x20 ≤ b ∧ b < 0x80 ∧ b ≠ 0x22 ∧ b ≠ 0x5c := by
  have hall : ∀ c ∈ codes, ∀ b ∈ ascii c.2, 0x20 ≤ b ∧ b < 0x80 ∧ b ≠ 0x22 ∧ b ≠ 0x5c := by
    decide +kernel
  unfold commandCodeFor
  split
  · exact fun b hb => absurd hb List.not_mem_nil
  · next c hfind => exact hall c (List.mem_of_find?_eq_some hfind)

/-- What the server is to read of the structure of a command, or of a null pointer. -/
def expectedData (struct : Struct) : Option struct.Data → Json
  | none => .obj []
  | some data => expectedPayload struct data

theorem parse_marshal (struct : Struct) (data : Option struct.Data)
    (hclean : ∀ d, data = some d → CleanTexts struct d) :
    parse (marshal struct data) = some (expectedData struct data) := by
  cases data with
  | none => cases struct <;> exact parse_empty
  | some d =>
    have hd := hclean d rfl
    cases struct with
    | none => exact parse_empty
    | readRawData => exact marshalIdcReadRawData_parse d
    | chipIo => exact marshalIdcChipIo_parse d
    | getPin => exact marshalPinGetPin_parse d
    | pinBlock => exact (marshalPinGetPinblock_parse d).mpr hd
    | dispense => exact (marshalCdmDispense_parse d).mpr hd
    | printForm => exact (marshalPtrPrintForm_parse d).mpr hd
    | rawData => exact marshalPtrRawData_parse d

theorem getLast?_str (w : Writer) : w.str.getLast? = some 0x7d := by
  have hbrace : ascii "\x7d" = [0x7d] := rfl
  rw [Writer.str, hbrace, List.getLast?_concat]

/-- Every payload ends with a brace. -/
theorem getLast?_marshal (struct : Struct) (data : Option struct.Data) :
    (marshal struct data).getLast? = some 0x7d := by
  cases data with
  | none => cases struct <;> rfl
  | some d =>
    cases struct with
    | none => rfl
    | readRawData => exact getLast?_str _
    | chipIo => exact getLast?_str _
    | getPin => exact getLast?_str _
    | pinBlock => exact getLast?_str _
    | dispense =>
      simp only [marshal, marshalCdmDispense]
      split <;> exact getLast?_str _
    | printForm => exact getLast?_str _
    | rawData =>
      simp only [marshal, marshalPtrRawData]
      split_ifs <;> exact getLast?_str _

theorem reads_marshal (struct : Struct) (data : Option struct.Data)
    (hclean : ∀ d, data = some d → CleanTexts struct d) :
    Reads (marshal struct data) (some (expectedData struct data)) :=
  reads_of_parse (parse_marshal struct data hclean) (getLast?_marshal struct data) (by decide)

omit [DecidableEq H] [DecidableEq W] in
/-- What WFPExecute does with a handle that is open. -/
theorem request_execute {p : Provider H W} {h : H} {b : ServiceBinding}
    (hb : p.services h = some b) (dwCommand : UInt32)
    (lpCmdData : (struct : Struct) → Option struct.Data) (resp : BridgeResponse)
    {args : RequestArgs} :
    p.request (.wfpExecute h dwCommand lpCmdData resp) = some args ↔
      commandCodeFor b.serviceClass dwCommand ≠ [] ∧
        args = ⟨ascii "WFPExecute", b.serviceClass, b.hService,
          commandCodeFor b.serviceClass dwCommand,
          payloadToJson b.serviceClass dwCommand
            (lpCmdData (structOf b.serviceClass dwCommand))⟩ := by
  rw [Provider.request, hb]
  simp only
  split_ifs with hcode
  · exact iff_of_false nofun fun hargs => hargs.1 hcode
  · rw [Option.some_inj]
    exact ⟨fun hargs => ⟨hcode, hargs.symm⟩, fun hargs => hargs.2.symm⟩

/-- In every run of the DLL, WFPExecute sends a request exactly when the last call that bound or
unbound the handle opened it and the command is one of its class, and then the request carries
the class and the service of that very opening; otherwise it fails with -4 or -8. -/
theorem request_of_run {calls : List (WfpCall H W)} {p : Provider H W}
    (hrun : Runs.exec Provider.step .start calls = some p) (h : H) (dwCommand : UInt32)
    (lpCmdData : (struct : Struct) → Option struct.Data) (resp : BridgeResponse) :
    (∀ args, p.request (.wfpExecute h dwCommand lpCmdData resp) = some args ↔
      ∃ name opened, OpenedAs calls h name opened ∧
        commandCodeFor (name.getD []) dwCommand ≠ [] ∧
        args = ⟨ascii "WFPExecute", name.getD [],
          jsonStringField opened.payloadJson (ascii "hService"),
          commandCodeFor (name.getD []) dwCommand,
          payloadToJson (name.getD []) dwCommand
            (lpCmdData (structOf (name.getD []) dwCommand))⟩) ∧
    ((∀ name opened, ¬OpenedAs calls h name opened) →
      p.result (.wfpExecute h dwCommand lpCmdData resp) = -4) ∧
    ∀ name opened, OpenedAs calls h name opened →
      p.result (.wfpExecute h dwCommand lpCmdData resp) =
        if commandCodeFor (name.getD []) dwCommand = [] then -8 else resp.result := by
  have hbound := services_of_run hrun h
  refine ⟨fun args => ⟨fun hsent => ?_, ?_⟩, fun hclosed => ?_, fun name opened hopen => ?_⟩
  · cases hb : p.services h with
    | none =>
      rw [Provider.request, hb] at hsent
      cases hsent
    | some b =>
      obtain ⟨name, opened, hopen, rfl⟩ := (hbound b).mp hb
      obtain ⟨hcode, rfl⟩ := (request_execute hb dwCommand lpCmdData resp).mp hsent
      exact ⟨name, opened, hopen, hcode, rfl⟩
  · rintro ⟨name, opened, hopen, hcode, rfl⟩
    have hb := (hbound _).mpr ⟨name, opened, hopen, rfl⟩
    exact (request_execute hb dwCommand lpCmdData resp).mpr ⟨hcode, rfl⟩
  · have hb : p.services h = none := by
      by_contra hsome
      obtain ⟨b, hb⟩ := Option.ne_none_iff_exists'.mp hsome
      obtain ⟨name, opened, hopen, -⟩ := (hbound b).mp hb
      exact hclosed name opened hopen
    rw [Provider.result, hb]
  · have hb := (hbound _).mpr ⟨name, opened, hopen, rfl⟩
    rw [Provider.result, hb]

/-- The two opens of a handle that was the card reader's before it was the PIN pad's. -/
def reopened : List (WfpCall Nat Nat) :=
  [.wfpOpen 1 (some (ascii "IDC")) ⟨0, successFrame someText someText (openPayload idcText), []⟩,
    .wfpRegister 1 9 7,
    .wfpClose 1 ⟨0, [], []⟩,
    .wfpOpen 1 (some (ascii "PIN")) ⟨0, successFrame someText someText (openPayload pinText), []⟩]

theorem request_of_reopened :
    ∃ p, Runs.exec Provider.step .start reopened = some p ∧
      ∃ args, p.request (.wfpExecute 1 201 (fun _ => none) ⟨0, [], []⟩) = some args ∧
        args.hService = ascii "PIN30" := by
  have hrun : Runs.exec Provider.step .start reopened =
      some (reopened.foldl (fun q c => (q.step c).getD q) .start) := rfl
  have hopen : OpenedAs reopened 1 (some (ascii "PIN"))
      ⟨0, successFrame someText someText (openPayload pinText), []⟩ :=
    ⟨reopened.take 3, [], rfl, rfl, fun c hc => absurd hc List.not_mem_nil⟩
  have hfield : jsonStringField (successFrame someText someText (openPayload pinText))
      (ascii "hService") = ascii "PIN30" := findField_openPayload someText someText pinText
  have hsent := ((request_of_run hrun 1 201 (fun _ => none) ⟨0, [], []⟩).1 _).mpr
    ⟨_, _, hopen, by decide +kernel, rfl⟩
  exact ⟨_, hrun, _, hsent, hfield⟩

/-- Where the server answers every open that succeeds, every command that the DLL sends in a frame of
at most a million bytes, behind other such frames and however the stream is cut, is handed to the
manager for the first service of the class that its handle was opened for, under the name of the
command and with the fields of its structure, if the texts of these can be written. -/
theorem execute_delivered (numberText : Number → Text) (services : List Service)
    {calls : List (WfpCall H W)} {p : Provider H W}
    (hrun : Runs.exec Provider.step .start calls = some p)
    (hserver : ∀ h name resp, .wfpOpen h name resp ∈ calls → resp.result = 0 →
      FromBridge numberText services name resp)
    {h : H} {dwCommand : UInt32} {lpCmdData : (struct : Struct) → Option struct.Data}
    {resp : BridgeResponse} {args : RequestArgs}
    (hsent : p.request (.wfpExecute h dwCommand lpCmdData resp) = some args)
    (hclean : ∀ d, lpCmdData (structOf args.service dwCommand) = some d →
      CleanTexts (structOf args.service dwCommand) d) (id : PlainText)
    {bodies chunks : List Bytes}
    (hsize : ∀ body ∈ bodies ++ [requestBody id.bytes args], body.length ≤ 1000000)
    (hstream : chunks.flatten =
      ((bodies ++ [requestBody id.bytes args]).map implFrame).flatten) :
    ∃ name opened frame service, OpenedAs calls h name opened ∧
      services.find? (fun s => decide (chars (name.getD []) = s.serviceClass)) = some service ∧
      (handleClient parse chunks).handed = bodies.map parse ++ [some frame] ∧
      handleFrame numberText services (some frame) = .executing (some (plainJson id)) ∧
      commandOf frame = ⟨some (.str service.hService), some (.str service.serviceClass),
        some (.str (chars (commandCodeFor (name.getD []) dwCommand))), some (plainJson id), 30000,
        some (expectedData (structOf (name.getD []) dwCommand)
          (lpCmdData (structOf (name.getD []) dwCommand)))⟩ := by
  cases hb : p.services h with
  | none =>
    rw [Provider.request, hb] at hsent
    cases hsent
  | some b =>
    obtain ⟨name, opened, hopen, rfl⟩ := (services_of_run hrun h b).mp hb
    obtain ⟨hcode, rfl⟩ := (request_execute hb dwCommand lpCmdData resp).mp hsent
    have ⟨hmem, hok⟩ : .wfpOpen h name opened ∈ calls ∧ opened.result = 0 := by
      obtain ⟨before, after, rfl, hok, -⟩ := hopen
      exact ⟨List.mem_append_right _ List.mem_cons_self, hok⟩
    obtain ⟨openId, ts, cls, hs, hname, hhandled, hpayload⟩ := hserver h name opened hmem hok
    obtain ⟨service, hfind, hservice⟩ := find_of_open hhandled
    have hhandle : jsonStringField opened.payloadJson (ascii "hService") = hs.bytes := by
      rw [hpayload]
      exact findField_openPayload openId ts hs
    have hclass : chars cls.bytes = service.serviceClass := by
      simpa using List.find?_some hfind
    let code : PlainText := ⟨commandCodeFor (name.getD []) dwCommand, plain_commandCodeFor _ _⟩
    have hop : ∀ b ∈ ascii "WFPExecute", 0x20 ≤ b ∧ b < 0x80 ∧ b ≠ 0x22 ∧ b ≠ 0x5c := by decide
    have hreads := reads_marshal (structOf (name.getD []) dwCommand)
      (lpCmdData (structOf (name.getD []) dwCommand)) hclean
    have hne : payloadToJson (name.getD []) dwCommand
        (lpCmdData (structOf (name.getD []) dwCommand)) ≠ [] := by
      intro hempty
      have hlast := getLast?_marshal (structOf (name.getD []) dwCommand)
        (lpCmdData (structOf (name.getD []) dwCommand))
      rw [payloadToJson] at hempty
      rw [hempty] at hlast
      cases hlast
    have hparse := parse_requestBody id ⟨ascii "WFPExecute", hop⟩ cls hs code hreads hne
    refine ⟨name, opened, requestFrame id ⟨ascii "WFPExecute", hop⟩ cls hs code
      (expectedData (structOf (name.getD []) dwCommand)
        (lpCmdData (structOf (name.getD []) dwCommand))), service, hopen, ?_, ?_, ?_, ?_⟩
    · rw [hname]
      exact hfind
    · rw [← hname] at hparse
      rw [handed_implFrames parse hsize hstream, List.map_append, List.map_singleton, hhandle]
      exact congrArg (fun frame => bodies.map parse ++ [frame]) hparse
    · exact handleFrame_execute id ⟨ascii "WFPExecute", hop⟩ cls hs code _ numberText services rfl
    · rw [commandOf_requestFrame, hservice, ← hclass]
      rfl

/-- The server of an ATM with a card reader and a PIN pad. -/
def idcAndPin : List Service :=
  [⟨utf16 "IDC30", utf16 "IDC", .null⟩, ⟨utf16 "PIN30", utf16 "PIN", .null⟩]

def fourToSix : GetPin := ⟨4, 6, 1, 0, 0, 0⟩

/-- A structure for GET_PIN, and a null pointer for every other command. -/
def getPinData : (struct : Struct) → Option struct.Data
  | .getPin => some fourToSix
  | _ => none

theorem fromBridge_open (class_ handle : PlainText) (numberText : Number → Text)
    {services : List Service}
    (hfind : ∃ info, services.find? (fun s => decide (chars class_.bytes = s.serviceClass)) =
      some ⟨chars handle.bytes, chars class_.bytes, info⟩) :
    FromBridge numberText services (some class_.bytes)
      ⟨0, successFrame someText someText (openPayload handle), []⟩ := by
  obtain ⟨info, hfind⟩ := hfind
  have hop : ∀ b ∈ ascii "WFPOpen", 0x20 ≤ b ∧ b < 0x80 ∧ b ≠ 0x22 ∧ b ≠ 0x5c := by decide
  have hparse := parse_requestBody someText ⟨ascii "WFPOpen", hop⟩ class_ emptyText emptyText
    reads_empty (by decide)
  refine ⟨someText, someText, class_, handle, rfl, ?_, rfl⟩
  have hsame : requestBody someText.bytes
        ⟨ascii "WFPOpen", class_.bytes, [], [], ascii "\x7b\x7d"⟩ =
      requestBody someText.bytes ⟨ascii "WFPOpen", class_.bytes, emptyText.bytes, emptyText.bytes,
        ascii "\x7b\x7d"⟩ := rfl
  rw [hsame, hparse, handleFrame_open _ _ _ _ _ _ numberText services rfl, hfind]
  rfl

/-- GET_PIN after the card reader was closed comes to the PIN pad, with its lengths. -/
theorem execute_delivered_reopened :
    ∃ p, Runs.exec Provider.step .start reopened = some p ∧ ∃ args frame,
      p.request (.wfpExecute 1 201 getPinData ⟨0, [], []⟩) = some args ∧
      (handleClient parse [implFrame (requestBody someText.bytes args)]).handed = [some frame] ∧
      (commandOf frame).hService = some (.str (utf16 "PIN30")) := by
  have hrun : Runs.exec Provider.step .start reopened =
      some (reopened.foldl (fun q c => (q.step c).getD q) .start) := rfl
  have hserver : ∀ h name resp, .wfpOpen h name resp ∈ reopened → resp.result = 0 →
      FromBridge (fun _ => []) idcAndPin name resp := by
    intro h name resp hmem _
    simp only [reopened, List.mem_cons, List.not_mem_nil, or_false, WfpCall.wfpOpen.injEq,
      reduceCtorEq, false_or] at hmem
    rcases hmem with ⟨-, rfl, rfl⟩ | ⟨-, rfl, rfl⟩
    · exact fromBridge_open ⟨ascii "IDC", by decide⟩ idcText _ ⟨.null, rfl⟩
    · exact fromBridge_open ⟨ascii "PIN", by decide⟩ pinText _ ⟨.null, rfl⟩
  have hb : (reopened.foldl (fun q c => (q.step c).getD q) Provider.start).services 1 =
      some ⟨ascii "PIN", jsonStringField (successFrame someText someText (openPayload pinText))
        (ascii "hService")⟩ := rfl
  have hstruct : structOf (ascii "PIN") 201 = .getPin := by decide
  have hclean : ∀ d, getPinData (structOf (ascii "PIN") 201) = some d →
      CleanTexts (structOf (ascii "PIN") 201) d := by
    rw [hstruct]
    exact fun _ _ => trivial
  have hcode : commandCodeFor (ascii "PIN") 201 ≠ [] := by decide +kernel
  have hsent := (request_execute hb 201 getPinData ⟨0, [], []⟩).mpr ⟨hcode, rfl⟩
  have hsize : ∀ body ∈ [] ++ [requestBody someText.bytes
      ⟨ascii "WFPExecute", ascii "PIN", jsonStringField
        (successFrame someText someText (openPayload pinText)) (ascii "hService"),
        commandCodeFor (ascii "PIN") 201,
        payloadToJson (ascii "PIN") 201 (getPinData (structOf (ascii "PIN") 201))⟩],
      body.length ≤ 1000000 := by decide +kernel
  obtain ⟨name, opened, frame, service, hopen, hfind, hparse, -, hcommand⟩ :=
    execute_delivered (fun _ => []) idcAndPin hrun hserver hsent hclean someText hsize
      (show [implFrame _].flatten = _ from rfl)
  refine ⟨_, hrun, _, frame, hsent, hparse, ?_⟩
  have hname := (services_of_run hrun 1 _).mpr ⟨name, opened, hopen, rfl⟩
  rw [hb, Option.some_inj, ServiceBinding.mk.injEq] at hname
  have hpin : idcAndPin.find? (fun s => decide (chars (ascii "PIN") = s.serviceClass)) =
      some ⟨utf16 "PIN30", utf16 "PIN", .null⟩ := rfl
  rw [← hname.1, hpin] at hfind
  cases hfind
  exact congrArg BridgeCommand.hService hcommand

end AtmXfs.Dll
