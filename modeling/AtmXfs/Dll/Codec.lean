import AtmXfs.Dll.MiniJson

namespace AtmXfs.Dll

open Js JsonText
open Framing (Bytes)

/-- A text of 7-bit characters that ends before its first NUL. -/
structure CString where
  bytes : Bytes
  terminated : 0 ∉ bytes
  sevenBit : ∀ b ∈ bytes, b < 0x80

/-- The fields of `WFSIDCREADRAWDATA_REQUEST`. As in the structures below, the fields that no
marshaller reads are left out; `none` is a null pointer. -/
structure ReadRawData where
  fwDataSource : UInt16

structure ChipIo where
  wChipProtocol : UInt16
  lpbChipData : Bytes
  sized : lpbChipData.length < 2 ^ 32

structure GetPin where
  usMinLen : UInt16
  usMaxLen : UInt16
  bAutoEnd : Int32
  ulActiveFDKs : UInt32
  ulActiveKeys : UInt32
  ulTerminateKeys : UInt32

structure PinBlock where
  lpsCustomerData : Option CString
  wFormat : UInt16
  lpsKey : Option CString

structure Denomination where
  cCurrencyID : Bytes
  three : cCurrencyID.length = 3
  ulAmount : UInt32
  usCount : UInt16
  lpusNoteNumber : Option (List UInt16)
  counted : ∀ counts ∈ lpusNoteNumber, counts.length = usCount.toNat

structure Dispense where
  usMixNumber : UInt16
  bPresent : Int32
  denomination : Denomination

structure PrintForm where
  lpszFormName : Option CString
  lpszMediaName : Option CString
  wMediaControl : UInt16
  lpszFields : Option CString

structure RawData where
  lpbData : Bytes
  sized : lpbData.length < 2 ^ 32

def cstr (p : Option CString) : Bytes := (p.map (·.bytes)).getD []

def base64Digit (n : Nat) : UInt8 :=
  (ascii "ABCDEFGHIJKLMNOPQRSTUVWXYZabcdefghijklmnopqrstuvwxyz0123456789+/").getD n 0

/-- The loop of `base64`, three bytes a round. -/
def base64 : Bytes → Bytes
  | [] => []
  | [a] =>
    let triple := a.toNat * 0x10000
    [base64Digit (triple / 0x40000 % 0x40), base64Digit (triple / 0x1000 % 0x40), 0x3d, 0x3d]
  | [a, b] =>
    let triple := a.toNat * 0x10000 + b.toNat * 0x100
    [base64Digit (triple / 0x40000 % 0x40), base64Digit (triple / 0x1000 % 0x40),
      base64Digit (triple / 0x40 % 0x40), 0x3d]
  | a :: b :: c :: rest =>
    let triple := a.toNat * 0x10000 + b.toNat * 0x100 + c.toNat
    base64Digit (triple / 0x40000 % 0x40) :: base64Digit (triple / 0x1000 % 0x40) ::
      base64Digit (triple / 0x40 % 0x40) :: base64Digit (triple % 0x40) :: base64 rest

def hexByte (n : Nat) : UInt8 := (ascii "0123456789ABCDEF").getD n 0

def hex (data : Bytes) : Bytes :=
  data.flatMap fun b => [hexByte (b.toNat / 16 % 16), hexByte (b.toNat % 16)]

/-- What a list of pieces comes to, with a comma before each but the first. -/
def listed (pieces : List Bytes) : Bytes := writeItems pieces

/-- The numbers that are pushed for the bits of a mask. -/
def trackNumbers (mask : UInt16) : List Nat :=
  [((0x0001 : UInt16), 1), (0x0002, 2), (0x0004, 3), (0x0008, 0)].filterMap fun (bit, n) =>
    if mask &&& bit ≠ 0 then some n else none

def marshalIdcReadRawData : Option ReadRawData → Bytes
  | none => ascii "\x7b\x7d"
  | some req =>
    let tracks := ascii "[" ++ listed ((trackNumbers req.fwDataSource).map decimalBytes) ++ ascii "]"
    ((Writer.new.key (ascii "tracks")).raw tracks).str

def protocolName (wChipProtocol : UInt16) : String :=
  if wChipProtocol = 0x0001 then "T0" else if wChipProtocol = 0x0002 then "T1" else "OTHER"

def marshalIdcChipIo : Option ChipIo → Bytes
  | none => ascii "\x7b\x7d"
  | some req =>
    ((((Writer.new.key (ascii "protocol")).string (ascii (protocolName req.wChipProtocol))).key
      (ascii "apdu")).string (hex req.lpbChipData)).str

/-- The keys of a bit mask in the order in which they are pushed. -/
def keysOf (table : List (UInt32 × String)) (bits : UInt32) : List String :=
  table.filterMap fun (bit, name) => if bits &&& bit ≠ 0 then some name else none

def digitKeys : List (UInt32 × String) :=
  [(0x1, "0"), (0x2, "1"), (0x4, "2"), (0x8, "3"), (0x10, "4"), (0x20, "5"), (0x40, "6"),
    (0x80, "7"), (0x100, "8"), (0x200, "9")]

def functionKeys : List (UInt32 × String) :=
  [(0x10000, "ENTER"), (0x20000, "CANCEL"), (0x40000, "CLEAR"), (0x80000, "BACKSPACE")]

def fdkKeys : List (UInt32 × String) :=
  [(0x1, "FDK01"), (0x2, "FDK02"), (0x4, "FDK03"), (0x8, "FDK04"), (0x10, "FDK05"),
    (0x20, "FDK06"), (0x40, "FDK07"), (0x80, "FDK08")]

def quotedList (names : List String) : Bytes :=
  ascii "[" ++ listed (names.map fun s => ascii "\"" ++ ascii s ++ ascii "\"") ++ ascii "]"

def fdkList (bits : UInt32) : Bytes := quotedList (keysOf fdkKeys bits)

def keyList (bits : UInt32) (terminate : Bool) : Bytes :=
  quotedList (keysOf ((if terminate then [] else digitKeys) ++ functionKeys) bits)

def marshalPinGetPin : Option GetPin → Bytes
  | none => ascii "\x7b\x7d"
  | some req =>
    ((((((((((((Writer.new.key (ascii "minLen")).number req.usMinLen.toNat).key
      (ascii "maxLen")).number req.usMaxLen.toNat).key
      (ascii "autoEnd")).bool (req.bAutoEnd ≠ 0)).key
      (ascii "activeKeys")).raw (keyList req.ulActiveKeys false)).key
      (ascii "activeFDKs")).raw (fdkList req.ulActiveFDKs)).key
      (ascii "terminateKeys")).raw (keyList req.ulTerminateKeys true)).str

def formatName (wFormat : UInt16) : String :=
  if wFormat = 0x0001 then "ISO0"
  else if wFormat = 0x0002 then "ISO1"
  else if wFormat = 0x0008 then "ISO3"
  else if wFormat = 0x0010 then "ANSI"
  else "ISO0"

def marshalPinGetPinblock : Option PinBlock → Bytes
  | none => ascii "\x7b\x7d"
  | some req =>
    ((((((Writer.new.key (ascii "keyName")).string (cstr req.lpsKey)).key
      (ascii "format")).string (ascii (formatName req.wFormat))).key
      (ascii "pan")).string (cstr req.lpsCustomerData)).str

def cdmCustom : UInt16 := 3

def mixName (usMixNumber : UInt16) : String :=
  if usMixNumber = 1 then "MIN_NOTES"
  else if usMixNumber = 2 then "MAX_NOTES"
  else if usMixNumber = cdmCustom then "CUSTOM"
  else "MIN_NOTES"

/-- `slot1`, `slot2`, … with the counts. -/
def slotPiece (i : Nat) (count : UInt16) : Bytes :=
  ascii "\"slot" ++ decimalBytes (i + 1) ++ ascii "\":" ++ decimalBytes count.toNat

def mixStr (counts : List UInt16) : Bytes :=
  ascii "\x7b" ++ listed (counts.mapIdx slotPiece) ++ ascii "\x7d"

/-- The note counts that the request is marshalled with, if any. -/
def customCounts (req : Dispense) : Option (List UInt16) :=
  if req.usMixNumber = cdmCustom ∧ 0 < req.denomination.usCount then
    req.denomination.lpusNoteNumber
  else none

def marshalCdmDispense : Option Dispense → Bytes
  | none => ascii "\x7b\x7d"
  | some req =>
    let out := (((((((Writer.new.key (ascii "amount")).number
      req.denomination.ulAmount.toNat).key
      (ascii "currency")).string req.denomination.cCurrencyID).key
      (ascii "mixType")).string (ascii (mixName req.usMixNumber))).key
      (ascii "present")).bool (req.bPresent ≠ 0)
    match customCounts req with
    | some counts => ((out.key (ascii "customMix")).raw (mixStr counts)).str
    | none => out.str

def isLineEnd (b : UInt8) : Bool := b = 0x0d ∨ b = 0x0a

def isLeading (b : UInt8) : Bool := b = 0x0d ∨ b = 0x0a ∨ b = 0x20 ∨ b = 0x09

def isKeyByte (b : UInt8) : Bool := b ≠ 0x3d ∧ !isLineEnd b

/-- One round of the loop over `lpszFields`: the key and the value of a line, and the rest. -/
def fieldLine (p : Bytes) : Bytes × Bytes × Bytes :=
  let key := p.takeWhile isKeyByte
  match p.dropWhile isKeyByte with
  | [] => (key, [], [])
  | c :: rest =>
    if c = 0x3d then
      (key, rest.takeWhile fun b => !isLineEnd b, rest.dropWhile fun b => !isLineEnd b)
    else (key, [], c :: rest)

theorem length_fieldLine_lt {p : Bytes} (hne : p.dropWhile isLeading ≠ []) :
    (fieldLine (p.dropWhile isLeading)).2.2.length < p.length := by
  have hle : (p.dropWhile isLeading).length ≤ p.length := (List.dropWhile_sublist _).length_le
  obtain ⟨b, rest, hp⟩ := List.exists_cons_of_ne_nil hne
  have hb : isLeading b = false := by
    have hhead := List.head?_dropWhile_not isLeading p
    rw [hp] at hhead
    simpa using hhead
  have hline : isLineEnd b = false := by
    simp only [isLeading, isLineEnd, decide_eq_false_iff_not, not_or] at hb ⊢
    exact ⟨hb.1, hb.2.1⟩
  rw [hp] at hle ⊢
  have hshort : (fieldLine (b :: rest)).2.2.length ≤ rest.length := by
    by_cases hequal : b = 0x3d
    · subst hequal
      have hdrop : (0x3d :: rest).dropWhile isKeyByte = 0x3d :: rest := rfl
      simp only [fieldLine, hdrop, if_true]
      exact (List.dropWhile_sublist _).length_le
    · have hdrop : (b :: rest).dropWhile isKeyByte = rest.dropWhile isKeyByte := by
        rw [List.dropWhile_cons, if_pos (by simp [isKeyByte, hequal, hline])]
      have hrest := (List.dropWhile_sublist isKeyByte (l := rest)).length_le
      simp only [fieldLine, hdrop]
      split
      · exact Nat.zero_le _
      · rename_i c more heq
        rw [heq, List.length_cons] at hrest
        split_ifs
        · have hmore := (List.dropWhile_sublist (fun b => !isLineEnd b) (l := more)).length_le
          exact le_trans hmore (Nat.le_of_succ_le hrest)
        · exact hrest
  simp only [List.length_cons] at hle
  omega

/-- The keys and values that the loop over `lpszFields` comes to; a line with an empty key is
passed over. -/
def fieldPairs (p : Bytes) : List (Bytes × Bytes) :=
  if _h : p.dropWhile isLeading = [] then []
  else
    let line := fieldLine (p.dropWhile isLeading)
    if line.1 = [] then fieldPairs line.2.2
    else (line.1, line.2.1) :: fieldPairs line.2.2
termination_by p.length
decreasing_by
  all_goals exact length_fieldLine_lt _h

def escapeKey (key : Bytes) : Bytes :=
  key.flatMap fun c => if c = 0x22 ∨ c = 0x5c then [0x5c, c] else [c]

def escapeValue (val : Bytes) : Bytes :=
  val.flatMap fun c =>
    if c = 0x22 ∨ c = 0x5c then [0x5c, c]
    else if c = 0x0a then ascii "\\n"
    else if c = 0x0d then ascii "\\r"
    else if c = 0x09 then ascii "\\t"
    else [c]

def fieldPiece (pair : Bytes × Bytes) : Bytes :=
  ascii "\"" ++ escapeKey pair.1 ++ ascii "\":\"" ++ escapeValue pair.2 ++ ascii "\""

def fieldsJson (fields : Bytes) : Bytes :=
  ascii "\x7b" ++ listed ((fieldPairs fields).map fieldPiece) ++ ascii "\x7d"

/-- The form name without the prefix that some integrations send. -/
def stripForms (form : Bytes) : Bytes :=
  if (ascii "FORMS.").isPrefixOf form then form.drop 6 else form

def mediaName (media : Bytes) : Bytes := if media = [] then ascii "RECEIPT" else media

def isCut (wMediaControl : UInt16) : Bool :=
  wMediaControl &&& 0x0004 ≠ 0 ∨ wMediaControl &&& 0x0080 ≠ 0

def marshalPtrPrintForm : Option PrintForm → Bytes
  | none => ascii "\x7b\x7d"
  | some req =>
    ((((((((Writer.new.key (ascii "formName")).string (stripForms (cstr req.lpszFormName))).key
      (ascii "mediaType")).string (mediaName (cstr req.lpszMediaName))).key
      (ascii "cut")).bool (isCut req.wMediaControl)).key
      (ascii "fields")).raw (fieldsJson (cstr req.lpszFields))).str

def isPrintable (c : UInt8) : Bool :=
  c = 0x0a ∨ c = 0x0d ∨ c = 0x09 ∨ (0x20 ≤ c ∧ c ≤ 0x7e)

def marshalPtrRawData : Option RawData → Bytes
  | none => ascii "\x7b\x7d"
  | some req =>
    if req.lpbData.all isPrintable then
      ((Writer.new.key (ascii "data")).string req.lpbData).str
    else
      ((((Writer.new.key (ascii "data")).string []).key
        (ascii "dataBase64")).string (base64 req.lpbData)).str

/-- Which structure a command comes with; `none` for a command without one. -/
inductive Struct where
  | none | readRawData | chipIo | getPin | pinBlock | dispense | printForm | rawData
  deriving DecidableEq

def Struct.Data : Struct → Type
  | .none => Unit
  | .readRawData => ReadRawData
  | .chipIo => ChipIo
  | .getPin => GetPin
  | .pinBlock => PinBlock
  | .dispense => Dispense
  | .printForm => PrintForm
  | .rawData => RawData

/-- The switch of `payload_to_json`. -/
def structOf (service : Bytes) (dwCommand : UInt32) : Struct :=
  if service = ascii "IDC" then
    if dwCommand = 101 then .readRawData
    else if dwCommand = 107 ∨ dwCommand = 108 then .chipIo
    else .none
  else if service = ascii "PIN" then
    if dwCommand = 201 ∨ dwCommand = 203 then .getPin
    else if dwCommand = 202 then .pinBlock
    else .none
  else if service = ascii "CDM" then
    if dwCommand = 301 then .dispense else .none
  else if service = ascii "PTR" then
    if dwCommand = 401 then .printForm
    else if dwCommand = 402 then .rawData
    else .none
  else .none

def marshal : (struct : Struct) → Option struct.Data → Bytes
  | .none, _ => ascii "\x7b\x7d"
  | .readRawData, req => marshalIdcReadRawData req
  | .chipIo, req => marshalIdcChipIo req
  | .getPin, req => marshalPinGetPin req
  | .pinBlock, req => marshalPinGetPinblock req
  | .dispense, req => marshalCdmDispense req
  | .printForm, req => marshalPtrPrintForm req
  | .rawData, req => marshalPtrRawData req

/-- `payload_to_json`, with a structure of the type that the command's `cmd_data` is cast to. -/
def payloadToJson (service : Bytes) (dwCommand : UInt32)
    (cmdData : Option (structOf service dwCommand).Data) : Bytes :=
  marshal (structOf service dwCommand) cmdData

end AtmXfs.Dll
