import Mathlib.Data.List.Basic
import Mathlib.Data.Option.Basic
import Mathlib.Tactic.Common

namespace AtmXfs.Emv

/-- The errors `decodeTlv` throws, with the numbers their texts quote. -/
inductive TlvError where
  | truncatedTag (offset : Int)
  | truncatedLength (offset : Int)
  | unsupportedLength (offset : Int)
  | truncatedLengthByte (offset : Int)
  | valueOutOfRange (offset length left : Int)
  deriving DecidableEq, Repr

def TlvError.message : TlvError → String
  | truncatedTag offset => s!"TLV truncated reading tag at offset {offset}"
  | truncatedLength offset => s!"TLV truncated reading length at offset {offset}"
  | unsupportedLength offset => s!"Unsupported TLV length encoding at offset {offset}"
  | truncatedLengthByte offset => s!"TLV truncated while reading length at offset {offset}"
  | valueOutOfRange offset length left =>
    s!"TLV value out of range at offset {offset}: length={length} but only {left} bytes left"

inductive TlvNode where
  | mk (tag : String) (length : Int) (value : List UInt8) (children : List TlvNode)
      (isConstructed : Bool)

namespace TlvNode

def tag : TlvNode → String | mk t _ _ _ _ => t
def length : TlvNode → Int | mk _ l _ _ _ => l
def value : TlvNode → List UInt8 | mk _ _ v _ _ => v
def children : TlvNode → List TlvNode | mk _ _ _ c _ => c
def isConstructed : TlvNode → Bool | mk _ _ _ _ k => k

end TlvNode

def hexDigit (n : Nat) : Char :=
  if n < 10 then Char.ofNat (n + '0'.toNat) else Char.ofNat (n - 10 + 'A'.toNat)

def bytesToHex (bytes : List UInt8) : String :=
  String.ofList (bytes.flatMap fun b => [hexDigit (b.toNat / 16), hexDigit (b.toNat % 16)])

/-- `bytes[i]` of a `Uint8Array`: `undefined` outside the array, below it as well. -/
def byteAt (bytes : List UInt8) (i : Int) : Option UInt8 :=
  if i < 0 then none else bytes[i.toNat]?

/-- `Uint8Array.prototype.slice`: a negative index counts from the end. -/
def slice (bytes : List UInt8) (start stop : Int) : List UInt8 :=
  let clamp (i : Int) : Int :=
    if i < 0 then max (bytes.length + i) 0 else min i bytes.length
  (bytes.drop (clamp start).toNat).take (clamp stop - clamp start).toNat

/-- The offset behind the tag: past the bytes with the top bit set and the terminator byte. -/
def tagEnd (bytes : List UInt8) (tagStart : Nat) (firstByte : UInt8) : Nat :=
  if firstByte &&& 0x1f = 0x1f then
    tagStart + 1 +
      ((bytes.drop (tagStart + 1)).takeWhile fun b => b &&& 0x80 == 0x80).length + 1
  else tagStart + 1

/-- The loop `length = (length << 8) | lenByte`, in the 32-bit arithmetic of `<<` and `|`. -/
def readLengthBytes (bytes : List UInt8) :
    Nat → Nat → BitVec 32 → Except TlvError (BitVec 32 × Nat)
  | 0, offset, length => .ok (length, offset)
  | n + 1, offset, length =>
    match bytes[offset]? with
    | none => .error (.truncatedLengthByte (offset + 1))
    | some lenByte =>
      readLengthBytes bytes n (offset + 1) ((length <<< 8) ||| lenByte.toBitVec.setWidth 32)

def readLength (bytes : List UInt8) (offset : Nat) : Except TlvError (Int × Nat) :=
  match bytes[offset]? with
  | none => .error (.truncatedLength (offset + 1))
  | some lenFirst =>
    if lenFirst < 0x80 then .ok (lenFirst.toNat, offset + 1)
    else
      let numLenBytes := (lenFirst &&& 0x7f).toNat
      if numLenBytes = 0 ∨ 4 < numLenBytes then .error (.unsupportedLength offset)
      else
        match readLengthBytes bytes numLenBytes (offset + 1) 0 with
        | .error e => .error e
        | .ok (length, valueStart) => .ok (length.toInt, valueStart)

/-- What one turn of the decoding loop reads, and the offset it leaves behind. -/
structure Element where
  tag : String
  length : Int
  value : List UInt8
  isConstructed : Bool
  next : Int
  deriving DecidableEq

def readElement (bytes : List UInt8) (offset : Int) : Except TlvError Element :=
  match byteAt bytes offset with
  | none => .error (.truncatedTag (offset + 1))
  | some firstByte =>
    let tagStart := offset.toNat
    let lengthStart := tagEnd bytes tagStart firstByte
    match readLength bytes lengthStart with
    | .error e => .error e
    | .ok (length, valueStart) =>
      -- the only check on the length; a negative one passes it
      if (bytes.length : Int) < valueStart + length then
        .error (.valueOutOfRange valueStart length (bytes.length - valueStart))
      else
        .ok { tag := bytesToHex (slice bytes tagStart lengthStart)
              length := length
              value := slice bytes valueStart (valueStart + length)
              isConstructed := firstByte &&& 0x20 == 0x20
              next := valueStart + length }

/-- The loop of `decodeTlv` from `offset` on. `none` when `fuel` turns and nested calls
are not enough. -/
def decodeFrom : Nat → List UInt8 → Int → Option (Except TlvError (List TlvNode))
  | 0, _, _ => none
  | fuel + 1, bytes, offset =>
    if (bytes.length : Int) ≤ offset then some (.ok [])
    else
      match readElement bytes offset with
      | .error e => some (.error e)
      | .ok el =>
        match if el.isConstructed then decodeFrom fuel el.value 0 else some (.ok []) with
        | some (.ok children) =>
          match decodeFrom fuel bytes el.next with
          | some (.ok rest) =>
            some (.ok (.mk el.tag el.length el.value children el.isConstructed :: rest))
          | r => r
        | r => r

def decodeTlv (fuel : Nat) (bytes : List UInt8) : Option (Except TlvError (List TlvNode)) :=
  decodeFrom fuel bytes 0

end AtmXfs.Emv
