import Mathlib.Data.List.Basic

/-! Base64 with the standard alphabet: four letters for three bytes, and padding in the last four
where one or two bytes were left. -/

namespace Base64

/-- The number a letter of the alphabet stands for. -/
def value (c : UInt8) : Option Nat :=
  if 0x41 ≤ c ∧ c ≤ 0x5a then some (c.toNat - 0x41)
  else if 0x61 ≤ c ∧ c ≤ 0x7a then some (c.toNat - 0x61 + 26)
  else if 0x30 ≤ c ∧ c ≤ 0x39 then some (c.toNat - 0x30 + 52)
  else if c = 0x2b then some 62
  else if c = 0x2f then some 63
  else none

/-- `=`, which is not in the alphabet. -/
def pad : UInt8 := 0x3d

/-- The bytes of the six-bit numbers that two, three or four letters stand for. -/
def firstByte (x y : Nat) : UInt8 := (x * 4 + y / 16).toUInt8

def secondByte (y z : Nat) : UInt8 := (y % 16 * 16 + z / 4).toUInt8

def thirdByte (z w : Nat) : UInt8 := (z % 4 * 64 + w).toUInt8

/-- The last four letters, where padding stands last: the bits behind the last byte are zero. -/
def decodeLast (a b c : UInt8) : Option (List UInt8) := do
  let x ← value a
  let y ← value b
  if c = pad then
    if y % 16 = 0 then some [firstByte x y] else none
  else
    let z ← value c
    if z % 4 = 0 then some [firstByte x y, secondByte y z] else none

def decode : List UInt8 → Option (List UInt8)
  | [] => some []
  | a :: b :: c :: d :: rest =>
    if d = pad then
      if rest = [] then decodeLast a b c else none
    else do
      let x ← value a
      let y ← value b
      let z ← value c
      let w ← value d
      let bytes ← decode rest
      some (firstByte x y :: secondByte y z :: thirdByte z w :: bytes)
  | _ => none

theorem value_ne_pad {c : UInt8} {n : Nat} (h : value c = some n) : c ≠ pad := by
  intro hpad
  rw [hpad] at h
  cases h

section Groups

variable {a b c d : UInt8} {x y z w : Nat} (ha : value a = some x) (hb : value b = some y)

include ha hb

/-- Four letters are three bytes. -/
theorem decode_full (hc : value c = some z) (hd : value d = some w) {rest bytes : List UInt8}
    (hrest : decode rest = some bytes) : decode (a :: b :: c :: d :: rest) =
      some (firstByte x y :: secondByte y z :: thirdByte z w :: bytes) := by
  rw [decode, if_neg (value_ne_pad hd), ha, hb, hc, hd, hrest]
  rfl

/-- Three letters and one pad are two bytes. -/
theorem decode_three (hc : value c = some z) (hzero : z % 4 = 0) :
    decode [a, b, c, pad] = some [firstByte x y, secondByte y z] := by
  have hlast : decodeLast a b c = some [firstByte x y, secondByte y z] := by
    rw [decodeLast, ha, hb, hc]
    simp [value_ne_pad hc, hzero]
  rw [decode, if_pos rfl, if_pos rfl, hlast]

/-- Two letters and two pads are one byte. -/
theorem decode_two (hzero : y % 16 = 0) : decode [a, b, pad, pad] = some [firstByte x y] := by
  have hlast : decodeLast a b pad = some [firstByte x y] := by
    rw [decodeLast, ha, hb]
    simp [hzero]
  rw [decode, if_pos rfl, if_pos rfl, hlast]

end Groups

end Base64
