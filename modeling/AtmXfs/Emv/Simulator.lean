import AtmXfs.Emv.TlvEncode

namespace AtmXfs.Emv

open Js

structure ApduResponse where
  data : Text
  sw1 : String
  sw2 : String
  deriving DecidableEq

structure EmvCardData where
  pan : Text
  expiryDate : Text
  cardholderName : Text
  deriving DecidableEq

def PSE_NAME : Text := utf16 "315041592E5359532E4444463031"

namespace SW

def OK (data : Text) : ApduResponse := ⟨data, "90", "00"⟩
def WARNING_FILE_NOT_FOUND : ApduResponse := ⟨[], "6A", "82"⟩
def CONDITIONS_NOT_SATISFIED : ApduResponse := ⟨[], "69", "85"⟩
def INS_NOT_SUPPORTED : ApduResponse := ⟨[], "6D", "00"⟩

end SW

structure EmvSimulator where
  card : EmvCardData
  powered : Bool
  selectedAid : Option Text
  atc : Nat
  currentRecord : UInt8
  deriving DecidableEq

inductive ChipError where
  | notPowered
  | codec (e : CodecError)
  deriving DecidableEq

/-- `Buffer.from(s, 'ascii')` keeps the low byte of every unit. -/
def asciiBytes (s : Text) : List UInt8 := s.map fun u => u.toNat.toUInt8

/-- `bytesToHex` as UTF-16. -/
def hexText (bytes : List UInt8) : Text := utf16 (bytesToHex bytes)

/-- `n.toString(16).toUpperCase()`. -/
def upperHex (n : Nat) : Text :=
  if n = 0 then [48] else (Nat.digits 16 n).reverse.map hexUnit

/-- The characters an AID is made of, and how many it may have. -/
def isAid (payloadHex : Text) : Bool :=
  payloadHex.all isHexUnit ∧ 10 ≤ payloadHex.length ∧ payloadHex.length ≤ 32

def padHex (pan : Text) : Text := if pan.length % 2 = 0 then pan else pan ++ utf16 "F"

/-- A TLV field of a tag and a value, both in hex. -/
def encodeFields (entries : List (Text × Text)) : Except CodecError (List (List UInt8)) :=
  entries.mapM fun entry => encodeTlvHex entry.1 entry.2

namespace EmvSimulator

def new (card : EmvCardData) : Except String EmvSimulator :=
  if ¬ (card.pan.all isDigitUnit ∧ 12 ≤ card.pan.length ∧ card.pan.length ≤ 19) then
    .error "EmvSimulator: invalid PAN (must be 12-19 digits)"
  else if ¬ (card.expiryDate.all isDigitUnit ∧ card.expiryDate.length = 4) then
    .error "EmvSimulator: invalid expiryDate (must be YYMM)"
  else .ok ⟨card, false, none, 0, 1⟩

/-- The chip behind the reset, and its ATR. -/
def powerOn (sim : EmvSimulator) : EmvSimulator × String :=
  ({ sim with powered := true, selectedAid := none, atc := 0 }, "3B6800000073C84013009000")

def powerOff (sim : EmvSimulator) : EmvSimulator :=
  { sim with powered := false, selectedAid := none }

/-- FNV-1a over the card number, the counter and the AID, whose characters are all below 128. -/
def deterministicArqc (sim : EmvSimulator) : Text :=
  let seed := sim.card.pan ++ utf16 "|" ++ decimal sim.atc ++ utf16 "|" ++ sim.selectedAid.getD []
  let hash : BitVec 64 := seed.foldl
    (fun hash ch => (hash ^^^ BitVec.ofNat 64 ch.toNat) * 0x100000001b3) 0xcbf29ce484222325
  hexText ((List.range 8).map fun i => (hash.toNat >>> (8 * (7 - i))).toUInt8)

/-- `bytesToHex` writes upper-case digits already. -/
def handleSelect (sim : EmvSimulator) (payloadHex : Text) :
    EmvSimulator × Except CodecError ApduResponse :=
  if payloadHex = PSE_NAME then
    (sim, do
      let name ← encodeTlvHex (utf16 "84") PSE_NAME
      let sfi ← encodeTlvHex (utf16 "88") (utf16 "01")
      let proprietary ← encodeTemplate (utf16 "A5") [sfi]
      let fci ← encodeTemplate (utf16 "6F") [name, proprietary]
      return SW.OK (hexText fci))
  else if isAid payloadHex then
    ({ sim with selectedAid := some payloadHex }, do
      let name ← encodeTlvHex (utf16 "84") payloadHex
      let label ← encodeTlvHex (utf16 "50") (hexText (asciiBytes (utf16 "VISA DEBIT")))
      let priority ← encodeTlvHex (utf16 "87") (utf16 "01")
      let proprietary ← encodeTemplate (utf16 "A5") [label, priority]
      let fci ← encodeTemplate (utf16 "6F") [name, proprietary]
      return SW.OK (hexText fci))
  else (sim, .ok SW.WARNING_FILE_NOT_FOUND)

def handleGpo (sim : EmvSimulator) : EmvSimulator × Except CodecError ApduResponse :=
  if sim.selectedAid.isNone then (sim, .ok SW.CONDITIONS_NOT_SATISFIED)
  else (sim, do
    let children ← encodeFields [(utf16 "82", utf16 "5C00"),
      (utf16 "94", utf16 "08010100100101011801010020010100")]
    return SW.OK (hexText (← encodeTemplate (utf16 "77") children)))

def handleReadRecord (sim : EmvSimulator) (record : UInt8) :
    EmvSimulator × Except CodecError ApduResponse :=
  if sim.selectedAid.isNone then (sim, .ok SW.CONDITIONS_NOT_SATISFIED)
  else ({ sim with currentRecord := record }, do
    let nameHex := hexText
      (asciiBytes ((sim.card.cardholderName.padEnd 26 32).slice (some 0) (some 26)))
    let children ← encodeFields [(utf16 "5A", padHex sim.card.pan),
      (utf16 "5F24", sim.card.expiryDate ++ utf16 "00"), (utf16 "5F20", nameHex)]
    return SW.OK (hexText (← encodeTemplate (utf16 "70") children)))

def handleGenerateAc (sim : EmvSimulator) : EmvSimulator × Except CodecError ApduResponse :=
  if sim.selectedAid.isNone then (sim, .ok SW.CONDITIONS_NOT_SATISFIED)
  else
    let sim := { sim with atc := sim.atc + 1 }
    (sim, do
      let atcHex := (upperHex sim.atc).padStart 4 48
      let children ← encodeFields [(utf16 "9F27", utf16 "80"), (utf16 "9F36", atcHex),
        (utf16 "9F26", sim.deterministicArqc),
        (utf16 "9F10", utf16 "0110A04003240000000000000000000000FF")]
      return SW.OK (hexText (← encodeTemplate (utf16 "77") children)))

/-- The handler that an APDU is routed to. -/
def route (sim : EmvSimulator) (apdu : ParsedApdu) :
    EmvSimulator × Except CodecError ApduResponse :=
  if apdu.cla = 0x00 ∧ apdu.ins = 0xa4 then sim.handleSelect (hexText apdu.data)
  else if apdu.cla = 0x80 ∧ apdu.ins = 0xa8 then sim.handleGpo
  else if apdu.cla = 0x00 ∧ apdu.ins = 0xb2 then sim.handleReadRecord apdu.p1
  else if apdu.cla = 0x80 ∧ apdu.ins = 0xae then sim.handleGenerateAc
  else (sim, .ok SW.INS_NOT_SUPPORTED)

/-- The state behind the call, also where it throws, and what it returns. -/
def transmitApdu (sim : EmvSimulator) (apdu : Text) :
    EmvSimulator × Except ChipError ApduResponse :=
  if sim.powered = false then (sim, .error .notPowered)
  else
    match parseApdu apdu with
    | .error e => (sim, .error (.codec e))
    | .ok parsed =>
      let (sim, r) := sim.route parsed
      (sim, r.mapError .codec)

end EmvSimulator

end AtmXfs.Emv
