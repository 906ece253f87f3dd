import AtmXfs.Lib.Json
import AtmXfs.Xfs.Base

namespace AtmXfs.Ptr

open Js

/-- What the device writes of the time: `Date.now().toString(36)` in capitals, the ISO form and
the one of the locale. -/
structure Instant where
  base36 : Text
  iso : Text
  locale : Text

structure PrintedReceipt where
  receiptId : Text
  timestamp : Text
  content : Option Json

structure PtrPrintFormPayload where
  formName : Text
  fields : List (Text × Text)

inductive PtrError where
  | outOfPaper
  | injected (code : Int)
  | unsupported (commandCode : Text)
  deriving DecidableEq

inductive PtrEvent where
  | paperThreshold (level : Nat)
  | mediaPresented (receiptId : Text) (content : Text)
  | mediaTaken (receiptId : Text)

inductive PtrResult where
  | done
  | receipt (receiptId : Text)
  | printed
  deriving DecidableEq

/-- `taking` holds the receipts whose take timer runs. -/
structure PtrDeviceService where
  paperLevel : Nat
  history : List PrintedReceipt
  injectedError : Option Int
  taking : List Text
  events : List PtrEvent

/-- `payload.data` is whatever the caller sends. -/
inductive PtrCommand where
  | reset
  | printForm (payload : PtrPrintFormPayload)
  | rawData (data : Option Json)
  | cutPaper
  | other (commandCode : Text)

def historyLimit : Nat := 200

def paperThreshold : Nat := 50

/-- A code unit of a string as `JSON.stringify` writes it; a surrogate here has no partner. -/
def quoteUnit (u : UInt16) : Text :=
  if u = 0x22 then utf16 "\\\""
  else if u = 0x5c then utf16 "\\\\"
  else if u = 0x08 then utf16 "\\b"
  else if u = 0x0c then utf16 "\\f"
  else if u = 0x0a then utf16 "\\n"
  else if u = 0x0d then utf16 "\\r"
  else if u = 0x09 then utf16 "\\t"
  else if u < 0x20 ∨ (0xd800 ≤ u ∧ u < 0xe000) then
    utf16 "\\u" ++ (utf16 (String.ofList (Nat.toDigits 16 u.toNat))).padStart 4 48
  else [u]

/-- The two halves of a surrogate pair are written as they stand. -/
def quoteUnits : Text → Text
  | [] => []
  | [u] => quoteUnit u
  | u :: v :: rest =>
    if 0xd800 ≤ u ∧ u < 0xdc00 ∧ 0xdc00 ≤ v ∧ v < 0xe000 then u :: v :: quoteUnits rest
    else quoteUnit u ++ quoteUnits (v :: rest)

def quote (t : Text) : Text := utf16 "\"" ++ quoteUnits t ++ utf16 "\""

/-- An object of written values, each line after so many blanks. -/
def indented (depth : Nat) (members : List (Text × Text)) : Text :=
  let line (m : Text × Text) : Text :=
    utf16 "\n" ++ List.replicate (depth + 2) 32 ++ quote m.1 ++ utf16 ": " ++ m.2
  if members.isEmpty then utf16 "\x7b\x7d"
  else utf16 "\x7b" ++ (utf16 ",").intercalate (members.map line) ++ utf16 "\n" ++
    List.replicate depth 32 ++ utf16 "\x7d"

def stringMembers (fields : List (Text × Text)) : List (Text × Text) :=
  fields.map fun f => (f.1, quote f.2)

def renderForm (now : Instant) (payload : PtrPrintFormPayload) : Text :=
  let field (name other : String) : Text := (payload.fields.lookup (utf16 name)).getD (utf16 other)
  if payload.formName = utf16 "RECEIPT" then
    (utf16 "\n").intercalate
      [utf16 "====================================",
        utf16 "    " ++ field "bankName" "ZEGEN BANK",
        utf16 "====================================",
        now.locale,
        utf16 "ATM:   " ++ field "atmId" "ATM001",
        utf16 "Trace: " ++ field "traceNo" "000000",
        [],
        utf16 "Transaction: " ++ field "txnType" "WITHDRAWAL",
        utf16 "Card:        ****" ++ field "cardLast4" "0000",
        utf16 "Account:     " ++ field "account" "-",
        [],
        utf16 "Amount:      Rp " ++ field "amount" "0",
        utf16 "Fee:         Rp " ++ field "fee" "0",
        utf16 "------------------------------------",
        utf16 "Total:       Rp " ++ field "total" "0",
        [],
        utf16 "Balance:     Rp " ++ field "balance" "***",
        [],
        utf16 "Thank you for banking with us.",
        utf16 "===================================="]
  else if payload.formName = utf16 "STATEMENT" ∨ payload.formName = utf16 "JOURNAL" then
    indented 0 [(utf16 "form", quote payload.formName), (utf16 "at", quote now.locale),
      (utf16 "fields", indented 2 (stringMembers payload.fields))]
  else indented 0 (stringMembers payload.fields)

def record (s : PtrDeviceService) (r : PrintedReceipt) : PtrDeviceService :=
  let history := s.history ++ [r]
  { s with history := if historyLimit < history.length then history.tail else history }

def printForm (s : PtrDeviceService) (now : Instant) (payload : PtrPrintFormPayload) :
    Except PtrError PtrResult × PtrDeviceService :=
  if s.paperLevel = 0 then (.error .outOfPaper, s)
  else
    let content := renderForm now payload
    let receiptId := utf16 "RCPT" ++ now.base36
    let level := s.paperLevel - 1
    let recorded := record s ⟨receiptId, now.iso, some (.str content)⟩
    let warning := if level ≤ paperThreshold then [.paperThreshold level] else []
    (.ok (.receipt receiptId),
      { recorded with
        paperLevel := level
        taking := s.taking ++ [receiptId]
        events := s.events ++ warning ++ [.mediaPresented receiptId content] })

def printRaw (s : PtrDeviceService) (now : Instant) (data : Option Json) :
    Except PtrError PtrResult × PtrDeviceService :=
  if s.paperLevel = 0 then (.error .outOfPaper, s)
  else
    let recorded := record s ⟨utf16 "RAW" ++ now.base36, now.iso, data⟩
    (.ok .printed, { recorded with paperLevel := s.paperLevel - 1 })

def paperCapacity : Nat := 1000

def fresh : PtrDeviceService := ⟨paperCapacity, [], none, [], []⟩

/-- The commands behind the check for an injected error. -/
def perform (s : PtrDeviceService) (now : Instant) :
    PtrCommand → Except PtrError PtrResult × PtrDeviceService
  | .reset => (.ok .done, s)
  | .printForm payload => printForm s now payload
  | .rawData data => printRaw s now data
  | .cutPaper => (.ok .done, s)
  | .other code => (.error (.unsupported code), s)

/-- RESET always runs, and any other command meets the injected error first. -/
def executeCommand (s : PtrDeviceService) (now : Instant) (c : PtrCommand) :
    Except PtrError PtrResult × PtrDeviceService :=
  match c with
  | .reset => (.ok .done, { s with injectedError := none })
  | c => Xfs.checkInjectedError (·.injectedError) (fun s => { s with injectedError := none })
      (fun code => .error (.injected code)) (perform · now c) s

theorem executeCommand_none {s : PtrDeviceService} (h : s.injectedError = none) (now : Instant)
    (c : PtrCommand) : executeCommand s now c = perform s now c := by
  have hcleared : { s with injectedError := none } = s := by rw [← h]
  cases c with
  | reset => exact congrArg (_, ·) hcleared
  | _ =>
    rw [executeCommand, Xfs.checkInjectedError_none h]
    simp

theorem executeCommand_some {s : PtrDeviceService} {code : Int} (h : s.injectedError = some code)
    (now : Instant) {c : PtrCommand} (hc : c ≠ .reset) :
    executeCommand s now c = (.error (.injected code), { s with injectedError := none }) := by
  cases c with
  | reset => exact absurd rfl hc
  | _ =>
    rw [executeCommand, Xfs.checkInjectedError_some h]
    simp

/-- The content of the receipt that was recorded last. -/
def lastContent (s : PtrDeviceService) : Option (Option Json) :=
  s.history.getLast?.map (·.content)

/-- The printer prints: no error waits for the next command and there is paper. -/
structure Ready (s : PtrDeviceService) : Prop where
  noError : s.injectedError = none
  paper : 0 < s.paperLevel

theorem getLast?_record (s : PtrDeviceService) (r : PrintedReceipt) :
    (record s r).history.getLast? = some r := by
  rw [record]
  simp only
  split_ifs with hfull
  · cases hhistory : s.history with
    | nil =>
      rw [hhistory] at hfull
      exact absurd hfull (by simp [historyLimit])
    | cons first rest => simp
  · simp

/-- A command that fails prints nothing. -/
theorem executeCommand_failed {s s' : PtrDeviceService} {now : Instant} {c : PtrCommand}
    {e : PtrError} (h : executeCommand s now c = (.error e, s')) :
    s'.history = s.history ∧ s'.paperLevel = s.paperLevel := by
  have hreset : c ≠ .reset := by
    rintro rfl
    cases h
  cases hinjected : s.injectedError with
  | some code =>
    rw [executeCommand_some hinjected now hreset] at h
    cases h
    exact ⟨rfl, rfl⟩
  | none =>
    rw [executeCommand_none hinjected] at h
    cases c with
    | reset => exact absurd rfl hreset
    | printForm payload =>
      rw [perform, printForm] at h
      split_ifs at h
      · cases h
        exact ⟨rfl, rfl⟩
      · simp only [Prod.mk.injEq, reduceCtorEq, false_and] at h
    | rawData data =>
      rw [perform, printRaw] at h
      split_ifs at h
      · cases h
        exact ⟨rfl, rfl⟩
      · simp only [Prod.mk.injEq, reduceCtorEq, false_and] at h
    | cutPaper => cases h
    | other code =>
      cases h
      exact ⟨rfl, rfl⟩

theorem executeCommand_rawData {s : PtrDeviceService} (hs : Ready s) (now : Instant)
    (data : Option Json) :
    lastContent (executeCommand s now (.rawData data)).2 = some data := by
  have hpaper : ¬s.paperLevel = 0 := Nat.pos_iff_ne_zero.mp hs.paper
  have hraw : executeCommand s now (.rawData data) = printRaw s now data :=
    executeCommand_none hs.noError now _
  rw [hraw, printRaw, if_neg hpaper, lastContent]
  exact congrArg (Option.map (·.content)) (getLast?_record ..)

end AtmXfs.Ptr
