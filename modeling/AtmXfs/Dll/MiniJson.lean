import AtmXfs.Lib.JsonReads

namespace AtmXfs.Dll

open Js JsonText
open Framing (Bytes)

/-- The builder of one object; nothing closes an array that it opened. -/
structure Writer where
  out : Bytes
  first : Bool

namespace Writer

def new : Writer := ⟨ascii "\x7b", true⟩

/-- What is written for one byte of a string. -/
def escapeByte (c : UInt8) : Bytes :=
  if c = 0x22 then ascii "\\\""
  else if c = 0x5c then ascii "\\\\"
  else if c = 0x0a then ascii "\\n"
  else if c = 0x0d then ascii "\\r"
  else if c = 0x09 then ascii "\\t"
  else [c]

def escape (s : Bytes) : Bytes := s.flatMap escapeByte

def key (w : Writer) (k : Bytes) : Writer where
  out := w.out ++ (if w.first then [] else ascii ",") ++ (ascii "\"" ++ escape k ++ ascii "\":")
  first := false

def raw (w : Writer) (s : Bytes) : Writer := { w with out := w.out ++ s }

def string (w : Writer) (v : Bytes) : Writer := w.raw (ascii "\"" ++ escape v ++ ascii "\"")

def number (w : Writer) (v : Nat) : Writer := w.raw (decimalBytes v)

def bool (w : Writer) (v : Bool) : Writer := w.raw (ascii (if v then "true" else "false"))

def str (w : Writer) : Bytes := w.out ++ ascii "\x7d"

end Writer

/-- What follows the first occurrence of a text. -/
def afterFirst (needle : Bytes) : Bytes → Option Bytes
  | [] => if needle = [] then some [] else none
  | b :: rest =>
    if needle.isPrefixOf (b :: rest) then some ((b :: rest).drop needle.length)
    else afterFirst needle rest

namespace Reader

def isBlank (b : UInt8) : Bool := b = 0x20 ∨ b = 0x09 ∨ b = 0x0a

/-- `find_field_start` for a path without a dot: the text from the value of the first member of
that name on, wherever it is nested. -/
def findFieldStart (body name : Bytes) : Option Bytes :=
  (afterFirst (ascii "\"" ++ name ++ ascii "\":") body).map fun rest => rest.dropWhile isBlank

/-- The text up to the closing quote; a backslash takes the next byte with it. -/
def quoted : Bytes → Bytes
  | [] => []
  | [b] => if b = 0x22 then [] else [b]
  | b :: c :: rest =>
    if b = 0x5c then b :: c :: quoted rest
    else if b = 0x22 then []
    else b :: quoted (c :: rest)

def unescape : Bytes → Bytes
  | [] => []
  | [b] => [b]
  | b :: c :: rest =>
    if b = 0x5c then
      (if c = 0x6e then 0x0a else if c = 0x72 then 0x0d else if c = 0x74 then 0x09 else c) ::
        unescape rest
    else b :: unescape (c :: rest)

def getString (body name : Bytes) : Bytes :=
  match findFieldStart body name with
  | some (b :: rest) => if b = 0x22 then unescape (quoted rest) else []
  | _ => []

def isDigitByte (b : UInt8) : Bool := 0x30 ≤ b ∧ b ≤ 0x39

/-- The white space of `isspace`. -/
def isSpaceByte (b : UInt8) : Bool := b = 0x20 ∨ (0x09 ≤ b ∧ b ≤ 0x0d)

theorem isDigitByte_range {b : UInt8} (hb : isDigitByte b = true) :
    48 ≤ b.toNat ∧ b.toNat ≤ 57 := by
  simpa [isDigitByte, UInt8.le_iff_toNat_le] using hb

theorem isDigitByte_ne {b c : UInt8} (hb : isDigitByte b = true)
    (hc : c.toNat < 48 ∨ 57 < c.toNat) : b ≠ c := by
  rintro rfl
  have hrange := isDigitByte_range hb
  omega

/-- A digit is neither white space nor a sign. -/
theorem isDigitByte_plain {b : UInt8} (hb : isDigitByte b = true) :
    isSpaceByte b = false ∧ b ≠ 0x2d ∧ b ≠ 0x2b := by
  refine ⟨?_, isDigitByte_ne hb (by decide), isDigitByte_ne hb (by decide)⟩
  have hspace : b ≠ 0x20 := isDigitByte_ne hb (by decide)
  have hrange := isDigitByte_range hb
  have hcr : (0x0d : UInt8).toNat = 13 := by decide
  simp only [isSpaceByte, hspace, false_or, decide_eq_false_iff_not, UInt8.le_iff_toNat_le,
    not_and]
  omega

/-- `atoll`, for a number that it can hold. -/
def atoll (text : Bytes) : Int :=
  let (negative, rest) := match text.dropWhile isSpaceByte with
    | 0x2d :: rest => (true, rest)
    | 0x2b :: rest => (false, rest)
    | rest => (false, rest)
  let n : Int := digitsNumber (chars (rest.takeWhile isDigitByte))
  if negative then -n else n

def getInt (body name : Bytes) (fallback : Int) : Int :=
  match findFieldStart body name with
  | some rest => atoll rest
  | none => fallback

end Reader

/-- The ways in which the DLL writes bytes into a string. -/
def writerEscape : Escape where
  write := Writer.escapeByte
  plain_or_escaped b := by
    by_cases hquote : b = 0x22
    · subst hquote
      exact Or.inr ⟨0x22, by decide, by decide, by decide⟩
    by_cases hslash : b = 0x5c
    · subst hslash
      exact Or.inr ⟨0x5c, by decide, by decide, by decide⟩
    by_cases hline : b = 0x0a
    · subst hline
      exact Or.inr ⟨0x6e, by decide, by decide, by decide⟩
    by_cases hreturn : b = 0x0d
    · subst hreturn
      exact Or.inr ⟨0x72, by decide, by decide, by decide⟩
    by_cases htab : b = 0x09
    · subst htab
      exact Or.inr ⟨0x74, by decide, by decide, by decide⟩
    exact Or.inl ⟨by simp [Writer.escapeByte, hquote, hslash, hline, hreturn, htab], hquote, hslash⟩

/-- A byte that `Writer` writes so that it is read as the character it is. -/
def isClean (b : UInt8) : Bool := (0x20 ≤ b ∧ b < 0x80) ∨ b = 0x0a ∨ b = 0x0d ∨ b = 0x09

theorem fine_iff_isClean (b : UInt8) : writerEscape.Fine b ↔ isClean b = true := by
  by_cases hspecial : b = 0x22 ∨ b = 0x5c ∨ b = 0x0a ∨ b = 0x0d ∨ b = 0x09
  · rcases hspecial with rfl | rfl | rfl | rfl | rfl <;> decide
  · simp only [not_or] at hspecial
    obtain ⟨hquote, hslash, hline, hreturn, htab⟩ := hspecial
    have hplain : writerEscape.write b = [b] := by
      simp [writerEscape, Writer.escapeByte, hquote, hslash, hline, hreturn, htab]
    have hclean : isClean b = true ↔ 0x20 ≤ b ∧ b < 0x80 := by
      simp [isClean, hline, hreturn, htab]
    rw [hclean, Escape.Fine, hplain]
    exact ⟨fun h => ⟨h.2 rfl, h.1⟩, fun h => ⟨h.2, fun _ => h.1⟩⟩

/-- A string member as it is read. -/
theorem readBack_iff_isClean (bs : Bytes) :
    writerEscape.readBack bs = some (chars bs) ↔ ∀ b ∈ bs, isClean b = true := by
  rw [Escape.readBack_iff]
  exact forall₂_congr fun b _ => fine_iff_isClean b

end AtmXfs.Dll
