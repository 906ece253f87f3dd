import AtmXfs.Emv.Tlv
import AtmXfs.Lib.JsString

namespace AtmXfs.Emv

open Js

/-- The errors the codecs throw, with what their texts quote. -/
inductive CodecError where
  | oddHex (length : Nat)
  | invalidHex (position : Nat) (pair : Text)
  | tlvLength (length : Nat)
  | apduTooShort (length : Nat)
  | apduTruncated (lc left : Nat)
  deriving DecidableEq, Repr

/-- Two hex digits a byte; a byte outside 0 to 255 is stored modulo 256. -/
def readPairs : Nat → Text → Except CodecError (List UInt8)
  | position, u :: v :: rest =>
    match parseHex [u, v] with
    | none => .error (.invalidHex position [u, v])
    | some byte => do
      let bytes ← readPairs (position + 2) rest
      return (byte % 256).toNat.toUInt8 :: bytes
  | _, _ => .ok []

def hexToBytes (hex : Text) : Except CodecError (List UInt8) :=
  let cleaned := hex.filter fun u => !isSpaceUnit u
  if cleaned.length % 2 ≠ 0 then .error (.oddHex cleaned.length)
  else readPairs 0 cleaned

structure ParsedApdu where
  cla : UInt8
  ins : UInt8
  p1 : UInt8
  p2 : UInt8
  lc : Nat
  data : List UInt8
  le : Nat
  deriving DecidableEq

def parseApdu (hex : Text) : Except CodecError ParsedApdu := do
  match ← hexToBytes hex with
  | [cla, ins, p1, p2] => return ⟨cla, ins, p1, p2, 0, [], 0⟩
  | [cla, ins, p1, p2, le] => return ⟨cla, ins, p1, p2, 0, [], le.toNat⟩
  | cla :: ins :: p1 :: p2 :: lc :: body =>
    if body.length < lc.toNat then throw (.apduTruncated lc.toNat body.length)
    return ⟨cla, ins, p1, p2, lc.toNat, body.take lc.toNat, (body.getD lc.toNat 0).toNat⟩
  | bytes => throw (.apduTooShort bytes.length)

def hexUnit (n : Nat) : UInt16 := (if n < 10 then 48 + n else 55 + n).toUInt16

/-- A byte as two upper-case hex digits. -/
def hexUnits (b : UInt8) : Text := [hexUnit (b.toNat / 16), hexUnit (b.toNat % 16)]

theorem utf16_bytesToHex (bytes : List UInt8) :
    utf16 (bytesToHex bytes) = bytes.flatMap hexUnits := by
  have hdigit : ∀ n < 16, (hexDigit n).toNat < 0x10000 ∧
      (hexDigit n).toNat.toUInt16 = hexUnit n := by decide
  have hunits (b : UInt8) : [hexDigit (b.toNat / 16), hexDigit (b.toNat % 16)].flatMap
      (fun c => if c.toNat < 0x10000 then [c.toNat.toUInt16]
        else [(0xd800 + (c.toNat - 0x10000) / 0x400).toUInt16,
          (0xdc00 + c.toNat % 0x400).toUInt16]) = hexUnits b := by
    have hbyte := b.toNat_lt
    obtain ⟨hhigh, hhigh'⟩ := hdigit (b.toNat / 16) (by omega)
    obtain ⟨hlow, hlow'⟩ := hdigit (b.toNat % 16) (by omega)
    simp only [List.flatMap_cons, List.flatMap_nil, if_pos hhigh, if_pos hlow, hhigh', hlow']
    rfl
  rw [utf16, bytesToHex, String.toList_ofList, List.flatMap_assoc]
  exact List.flatMap_congr fun b _ => hunits b

theorem hexUnits_plain (b : UInt8) : ∀ u ∈ hexUnits b, isSpaceUnit u = false := by
  have hall : ∀ n < 16, isSpaceUnit (hexUnit n) = false := by decide
  have hbyte := b.toNat_lt
  intro u hu
  rcases List.mem_cons.mp hu with rfl | hu
  · exact hall _ (by omega)
  · cases List.mem_singleton.mp hu
    exact hall _ (by omega)

theorem parseHex_hexUnits (b : UInt8) : parseHex (hexUnits b) = some (b.toNat : Int) := by
  have hall : ∀ h < 16, ∀ l < 16,
      parseHex [hexUnit h, hexUnit l] = some ((h * 16 + l : Nat) : Int) := by decide +kernel
  have hbyte := b.toNat_lt
  have hread := hall (b.toNat / 16) (by omega) (b.toNat % 16) (by omega)
  rw [Nat.div_add_mod'] at hread
  exact hread

theorem readPairs_hexUnits (position : Nat) (bytes : List UInt8) :
    readPairs position (bytes.flatMap hexUnits) = .ok bytes := by
  induction bytes generalizing position with
  | nil => rfl
  | cons b bytes ih =>
    have hbyte : ((b.toNat : Int) % 256).toNat.toUInt8 = b := by
      have hlt := b.toNat_lt
      have hmod : ((b.toNat : Int) % 256).toNat = b.toNat := by omega
      rw [hmod]
      exact UInt8.ofNat_toNat
    have hpair := parseHex_hexUnits b
    rw [List.flatMap_cons]
    simp only [hexUnits] at hpair ⊢
    simp only [List.cons_append, List.nil_append, readPairs, hpair, ih, hbyte]
    rfl

theorem length_hexUnits (bytes : List UInt8) :
    (bytes.flatMap hexUnits).length = 2 * bytes.length := by
  rw [List.length_flatMap]
  simp [hexUnits, Nat.mul_comm]

/-- Bytes come back from their hex text. -/
theorem hexToBytes_bytesToHex (bytes : List UInt8) :
    hexToBytes (utf16 (bytesToHex bytes)) = .ok bytes := by
  have hclean : (bytes.flatMap hexUnits).filter (fun u => !isSpaceUnit u) =
      bytes.flatMap hexUnits := by
    rw [List.filter_eq_self]
    intro u hu
    obtain ⟨b, -, hb⟩ := List.mem_flatMap.mp hu
    simp [hexUnits_plain b u hb]
  have hlength := length_hexUnits bytes
  rw [utf16_bytesToHex, hexToBytes, hclean, if_neg (by omega)]
  exact readPairs_hexUnits 0 bytes

end AtmXfs.Emv
