import AtmXfs.Dll.Lookup
import AtmXfs.Pin.Entry

namespace AtmXfs.Dll

open Js JsonText Pin
open Framing (Bytes)

/-- The fields of `WFSPINENTRY`. -/
structure PinEntry where
  usDigits : UInt16
  wCompletion : UInt16
  wCompletionKey : UInt16
  deriving DecidableEq

/-- What `response_from_json` fills in: an entry, the length of a PIN block, or nothing. -/
inductive Filled where
  | pinEntry (entry : PinEntry)
  | pinBlock (usLength : UInt16)
  | nothing
  deriving DecidableEq

def parsePinEntry (json : Bytes) : PinEntry :=
  let usDigits := UInt16.ofInt (Reader.getInt json (ascii "pinLength") 0)
  { usDigits := usDigits
    wCompletion := if 0 < usDigits then 2 else 3
    wCompletionKey := 0 }

def parsePinBlock (json : Bytes) : UInt16 :=
  UInt16.ofNat (Reader.getString json (ascii "pinBlock")).length

/-- The switch of `response_from_json`, for a caller who wants the structure filled. -/
def responseFromJson (service : Bytes) (dwCommand : UInt32) (json : Bytes) : Filled :=
  if service = ascii "PIN" then
    if dwCommand = 201 ∨ dwCommand = 203 then .pinEntry (parsePinEntry json)
    else if dwCommand = 202 then .pinBlock (parsePinBlock json)
    else .nothing
  else .nothing

def pinLength : FieldName := ⟨ascii "pinLength", by decide, by decide⟩

def dataName : FieldName := ⟨ascii "data", by decide, by decide⟩

def pinPayload (n : Nat) : Bytes :=
  0x7b :: (pinLength.searched ++ (decimalBytes n ++ ascii "\x7d"))

def dataPayload (digits : List Char) : Bytes :=
  0x7b :: (dataName.searched ++ 0x22 :: (ascii (String.ofList digits) ++ ascii "\"\x7d"))

/-- The `payload` that answers an entry, as `JSON.stringify` writes it; the answers to the other
commands are not needed here. -/
def entryPayload : Answer → Option Bytes
  | .pinLength n => some (pinPayload n)
  | .data digits => some (dataPayload digits)
  | _ => none

def resultName : FieldName := ⟨ascii "result", by decide, by decide⟩

theorem plain_response : ∀ b ∈ ascii "response", 0x20 ≤ b ∧ b < 0x80 ∧ b ≠ 0x22 ∧ b ≠ 0x5c := by
  decide

def response : PlainText := ⟨ascii "response", plain_response⟩

/-- The response to a command that succeeded, with its id, its time and its payload;
`errorDetail` is undefined and left out. -/
def successFrame (id ts : PlainText) (payload : Bytes) : Bytes :=
  frameHead response id ts ++ (resultName.searched ++ (ascii "0," ++
    (payloadName.searched ++ (payload ++ ascii "\x7d"))))

/-- The command that an entry of this mode is asked for with. -/
def entryCommand : Mode → UInt32
  | .pin => 201
  | .data => 203

/-- What the vendor's application is told of the entry. -/
def reported (mode : Mode) (answer : Answer) (id ts : PlainText) : Option Filled :=
  (entryPayload answer).map fun payload =>
    responseFromJson (ascii "PIN") (entryCommand mode) (successFrame id ts payload)

/-- Nothing in front of the payload is taken for its `pinLength`. -/
theorem afterFirst_successFrame (id ts : PlainText) (payload : Bytes) :
    afterFirst pinLength.searched (successFrame id ts payload) =
      afterFirst pinLength.searched (payload ++ ascii "\x7d") := by
  rw [successFrame, afterFirst_frameHead (by decide) (by decide) (by decide), afterFirst_name (by decide), afterFirst_noQuote (by decide), afterFirst_name (by decide)]

theorem getInt_successFrame (id ts : PlainText) (payload : Bytes) :
    Reader.getInt (successFrame id ts payload) (ascii "pinLength") 0 =
      match afterFirst pinLength.searched (payload ++ ascii "\x7d") with
      | some rest => Reader.atoll (rest.dropWhile Reader.isBlank)
      | none => 0 := by
  have hstart := findFieldStart_eq pinLength (successFrame id ts payload)
  rw [afterFirst_successFrame] at hstart
  have hname : pinLength.bytes = ascii "pinLength" := rfl
  rw [Reader.getInt, ← hname, hstart]
  cases afterFirst pinLength.searched (payload ++ ascii "\x7d") with
  | none => rfl
  | some rest => rfl

theorem takeWhile_digits {pre : Bytes} (h : ∀ b ∈ pre, Reader.isDigitByte b = true) {c : UInt8}
    (hc : Reader.isDigitByte c = false) (rest : Bytes) :
    (pre ++ c :: rest).takeWhile Reader.isDigitByte = pre := by
  rw [List.takeWhile_append_of_pos h, List.takeWhile_cons_of_neg (by simp [hc]), List.append_nil]

theorem atoll_unsigned {b : UInt8} (hspace : Reader.isSpaceByte b = false) (hminus : b ≠ 0x2d)
    (hplus : b ≠ 0x2b) (rest : Bytes) :
    Reader.atoll (b :: rest) = digitsNumber (chars ((b :: rest).takeWhile Reader.isDigitByte)) := by
  rw [Reader.atoll, List.dropWhile_cons_of_neg (by simp [hspace])]
  split
  rename_i negative more heq
  split at heq
  · rename_i hb
    exact absurd (List.cons.inj hb).1 hminus
  · rename_i hb
    exact absurd (List.cons.inj hb).1 hplus
  · cases heq
    rfl

/-- A number is read up to the brace behind it. -/
theorem atoll_decimal (n : Nat) (rest : Bytes) :
    Reader.atoll ((decimalBytes n ++ 0x7d :: rest).dropWhile Reader.isBlank) = n := by
  have hdigits : ∀ b ∈ decimalBytes n, Reader.isDigitByte b = true := by
    intro b hb
    simpa [Reader.isDigitByte, UInt8.le_iff_toNat_le] using isDigit_decimalBytes hb
  have htake := takeWhile_digits hdigits (by decide : Reader.isDigitByte 0x7d = false) rest
  have hvalue : digitsNumber (chars (decimalBytes n)) = n := by
    rw [chars_decimalBytes, digitsNumber_decimal]
  cases hbytes : decimalBytes n with
  | nil => exact absurd (List.map_eq_nil_iff.mp hbytes) (decimal_ne_nil n)
  | cons b tail =>
    have hb : Reader.isDigitByte b = true := hdigits b (hbytes ▸ List.mem_cons_self ..)
    obtain ⟨hspace, hminus, hplus⟩ := Reader.isDigitByte_plain hb
    have hother : ∀ c : UInt8, c.toNat < 48 → b ≠ c := fun _ hc =>
      Reader.isDigitByte_ne hb (Or.inl hc)
    have hblank : Reader.isBlank b = false := by
      simp [Reader.isBlank, hother 0x20 (by decide), hother 0x09 (by decide),
        hother 0x0a (by decide)]
    rw [hbytes, List.cons_append] at htake
    rw [hbytes] at hvalue
    rw [List.cons_append, List.dropWhile_cons_of_neg (by simp [hblank]),
      atoll_unsigned hspace hminus hplus, htake, hvalue]

theorem getInt_pin (n : Nat) (id ts : PlainText) :
    Reader.getInt (successFrame id ts (pinPayload n)) (ascii "pinLength") 0 = n := by
  have hfound : afterFirst pinLength.searched (pinPayload n ++ ascii "\x7d") =
      some (decimalBytes n ++ 0x7d :: ascii "\x7d") := by
    rw [pinPayload, List.cons_append, afterFirst_other (by decide), List.append_assoc,
      afterFirst_found, List.append_assoc]
    rfl
  rw [getInt_successFrame, hfound]
  exact atoll_decimal _ _

theorem digit_toNat {c : Char} (h : isDigit 10 c = true) : 48 ≤ c.toNat ∧ c.toNat ≤ 57 := by
  unfold isDigit digitValue at h
  split_ifs at h with hdigit hlower hupper
  · exact ⟨UInt32.le_iff_toNat_le.mp hdigit.1, UInt32.le_iff_toNat_le.mp hdigit.2⟩
  · simp at h
  · simp at h
  · simp at h

theorem digit_noQuote {c : Char} (h : isDigit 10 c = true) : c.toNat.toUInt8 ≠ 0x22 := by
  intro heq
  have hnat : c.toNat % 256 = 0x22 := congrArg UInt8.toNat heq
  have hrange := digit_toNat h
  omega

theorem getInt_data {digits : List Char} (hdigits : ∀ c ∈ digits, isDigit 10 c = true)
    (id ts : PlainText) :
    Reader.getInt (successFrame id ts (dataPayload digits)) (ascii "pinLength") 0 = 0 := by
  have hquote : ∀ b ∈ ascii (String.ofList digits), b ≠ 0x22 := by
    intro b hb
    obtain ⟨c, hc, rfl⟩ := List.mem_map.mp hb
    rw [String.toList_ofList] at hc
    exact digit_noQuote (hdigits c hc)
  have hfound : afterFirst pinLength.searched (dataPayload digits ++ ascii "\x7d") = none := by
    have hsplit : dataPayload digits ++ ascii "\x7d" =
        0x7b :: (dataName.searched ++ 0x22 :: (ascii (String.ofList digits) ++ 0x22 :: 0x7d ::
          ascii "\x7d")) := by
      rw [dataPayload, List.cons_append, List.append_assoc, List.cons_append, List.append_assoc]
      rfl
    rw [hsplit, afterFirst_other (by decide), afterFirst_name (by decide),
      afterFirst_string hquote (by decide) (by decide)]
    rfl
  rw [getInt_successFrame, hfound]

/-- The entry says what happened at the pad: so many digits, ended by a key or by `autoEnd`. -/
structure Tells (byKey : Bool) (digits : List Char) (entry : PinEntry) : Prop where
  usDigits : entry.usDigits.toNat = digits.length
  wCompletion : entry.wCompletion = if byKey then 2 else 1

theorem ofInt_natCast (n : Nat) : UInt16.ofInt n = UInt16.ofNat n := by
  rw [UInt16.ofInt, ← UInt16.toNat_inj, UInt16.toNat_ofNat', UInt16.toNat_ofNat']
  omega

theorem parsePinEntry_pin (n : Nat) (id ts : PlainText) :
    parsePinEntry (successFrame id ts (pinPayload n)) =
      { usDigits := UInt16.ofNat n
        wCompletion := if 0 < UInt16.ofNat n then 2 else 3
        wCompletionKey := 0 } := by
  rw [parsePinEntry, getInt_pin, ofInt_natCast]

theorem parsePinEntry_data {digits : List Char} (hdigits : ∀ c ∈ digits, isDigit 10 c = true)
    (id ts : PlainText) :
    parsePinEntry (successFrame id ts (dataPayload digits)) =
      { usDigits := 0, wCompletion := 3, wCompletionKey := 0 } := by
  rw [parsePinEntry, getInt_data hdigits]
  rfl

/-- Of an entry of a PIN its length is told, and that a key ended it where it has a length. -/
theorem tells_pin_iff (byKey : Bool) (digits : List Char) (id ts : PlainText) :
    Tells byKey digits (parsePinEntry (successFrame id ts (pinPayload digits.length))) ↔
      byKey = true ∧ digits ≠ [] ∧ digits.length < 2 ^ 16 := by
  rw [parsePinEntry_pin]
  constructor
  · intro htells
    have hlength : digits.length < 2 ^ 16 := by
      rw [← htells.usDigits]
      exact UInt16.toNat_lt _
    have hcompletion := htells.wCompletion
    simp only at hcompletion
    split_ifs at hcompletion with hpos hkey hkey
    · have hne : digits ≠ [] := by
        rintro rfl
        exact absurd hpos (by decide)
      exact ⟨hkey, hne, hlength⟩
    · exact absurd hcompletion (by decide)
    · exact absurd hcompletion (by decide)
    · exact absurd hcompletion (by decide)
  · intro h
    obtain ⟨hkey, hne, hlength⟩ := h
    have hdigits : (UInt16.ofNat digits.length).toNat = digits.length := by
      rw [UInt16.toNat_ofNat']
      exact Nat.mod_eq_of_lt hlength
    have hpos : 0 < UInt16.ofNat digits.length := by
      rw [UInt16.lt_iff_toNat_lt, hdigits]
      exact List.length_pos_of_ne_nil hne
    exact ⟨hdigits, by rw [if_pos hpos, if_pos hkey]⟩

/-- An entry of data is told as a cancelled one without digits. -/
theorem not_tells_data (byKey : Bool) {digits : List Char}
    (hdigits : ∀ c ∈ digits, isDigit 10 c = true) (id ts : PlainText) :
    ¬Tells byKey digits (parsePinEntry (successFrame id ts (dataPayload digits))) := by
  rw [parsePinEntry_data hdigits]
  rintro ⟨-, hcompletion⟩
  cases byKey with
  | true => exact absurd hcompletion (by decide)
  | false => exact absurd hcompletion (by decide)

variable {κ : Type}

/-- What is reported of an entry that has ended agrees with the pad exactly if the entry is one of
a PIN that a key ended with a digit in the buffer. -/
theorem reported_tells_iff {pad : Pad κ} (hreach : Runs.Reaches Pad.step Runs.free Pad.init pad)
    {entry : EntrySpec κ} (hactive : pad.active = some entry) {key : String} {answer : Answer}
    (hended : (pad.pressKey key).2 = [(entry.waiter, .ok answer)]) (id ts : PlainText) :
    (∃ digits told,
        (pad.pressKey key).1.log.head? = some (.terminated entry.spec entry.mode digits) ∧
        reported entry.mode answer id ts = some (.pinEntry told) ∧
        Tells (entry.spec.endsAt key) digits told) ↔
      entry.mode = .pin ∧ entry.spec.endsAt key = true ∧ pad.pinBuffer ≠ [] ∧
        pad.pinBuffer.length < 2 ^ 16 := by
  have htyped : pad.Typed := typed_of_reaches (.of_empty rfl) hreach
  obtain ⟨digits, hanswer, hdigits, hlog, hbuffer⟩ := pressKey_ended htyped hactive hended
  subst hanswer
  constructor
  · rintro ⟨digits', told, hlog', htold, htells⟩
    have hsame : digits' = digits := by
      rw [hlog] at hlog'
      cases hlog'
      rfl
    subst hsame
    cases hmode : entry.mode with
    | pin =>
      rw [hmode] at htold
      cases htold
      obtain ⟨hkey, hne, hlength⟩ := (tells_pin_iff _ _ _ _).mp htells
      rw [hbuffer hkey] at hne hlength
      exact ⟨rfl, hkey, hne, hlength⟩
    | data =>
      rw [hmode] at htold
      cases htold
      exact absurd htells (not_tells_data _ hdigits _ _)
  · rintro ⟨hmode, hkey, hne, hlength⟩
    rw [← hbuffer hkey] at hne hlength
    have htells := (tells_pin_iff _ _ id ts).mpr ⟨hkey, hne, hlength⟩
    have hreported : reported .pin (.pinLength digits.length) id ts =
        some (.pinEntry (parsePinEntry (successFrame id ts (pinPayload digits.length)))) := rfl
    rw [hmode]
    exact ⟨digits, _, hmode ▸ hlog, hreported, htells⟩

/-- A PIN of four digits, ended by ENTER or by the fourth digit. -/
def fourDigits (autoEnd : Bool) : PinGetPinPayload where
  minLen := .ofInt 4
  maxLen := .ofInt 4
  autoEnd := autoEnd
  activeKeys := []
  terminateKeys := []

/-- The pad after GET_PIN and these keys. -/
def afterKeys (spec : PinGetPinPayload) (keys : List String) : Pad Unit :=
  (PadOp.executeCommand (.getPin spec) () none :: keys.map PadOp.pressKey).foldl Pad.after Pad.init

theorem afterKeys_reaches (spec : PinGetPinPayload) (keys : List String) :
    Runs.Reaches Pad.step Runs.free Pad.init (afterKeys spec keys) := by
  have hexec : ∀ (ops : List (PadOp Unit)) (pad : Pad Unit),
      Runs.exec Pad.step pad ops = some (ops.foldl Pad.after pad) := by
    intro ops
    induction ops with
    | nil => exact fun _ => rfl
    | cons op ops ih => exact fun pad => ih (pad.after op)
  exact Runs.Reaches.of_exec _ (hexec _ _)

theorem plain_someText : ∀ b ∈ ascii "REQ_1", 0x20 ≤ b ∧ b < 0x80 ∧ b ≠ 0x22 ∧ b ≠ 0x5c := by
  decide

def someText : PlainText := ⟨ascii "REQ_1", plain_someText⟩

theorem enter_tells :
    ∃ digits told,
      ((afterKeys (fourDigits false) ["1", "2", "3", "4"]).pressKey "ENTER").1.log.head? =
        some (.terminated (fourDigits false) .pin digits) ∧
      reported .pin (.pinLength 4) someText someText = some (.pinEntry told) ∧
      Tells true digits told := by
  have hactive : (afterKeys (fourDigits false) ["1", "2", "3", "4"]).active =
      some ⟨fourDigits false, .pin, (), 0⟩ := by decide +kernel
  have hended : ((afterKeys (fourDigits false) ["1", "2", "3", "4"]).pressKey "ENTER").2 =
      [((), .ok (.pinLength 4))] := by decide +kernel
  have hiff := reported_tells_iff (afterKeys_reaches (fourDigits false) ["1", "2", "3", "4"])
    hactive hended someText someText
  exact hiff.mpr (by decide +kernel)

/-- Four digits that `autoEnd` ends are told as ended by ENTER. -/
theorem autoEnd_told_enter :
    ((afterKeys (fourDigits true) ["1", "2", "3"]).pressKey "4").2 = [((), .ok (.pinLength 4))] ∧
      (fourDigits true).endsAt "4" = false ∧
      reported .pin (.pinLength 4) someText someText =
        some (.pinEntry { usDigits := 4, wCompletion := 2, wCompletionKey := 0 }) ∧
      ¬Tells false ['1', '2', '3', '4'] { usDigits := 4, wCompletion := 2, wCompletionKey := 0 } := by
  have hreported : reported .pin (.pinLength 4) someText someText =
      some (.pinEntry (parsePinEntry (successFrame someText someText (pinPayload 4)))) := rfl
  rw [hreported, parsePinEntry_pin]
  have hended : ((afterKeys (fourDigits true) ["1", "2", "3"]).pressKey "4").2 =
      [((), .ok (.pinLength 4))] := by decide +kernel
  have hkey : (fourDigits true).endsAt "4" = false := by decide
  refine ⟨hended, hkey, by decide, ?_⟩
  exact fun htells => absurd htells.wCompletion (by decide)

end AtmXfs.Dll
