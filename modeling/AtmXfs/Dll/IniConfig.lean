import AtmXfs.Dll.MiniJson

namespace AtmXfs.Dll

open Js JsonText
open Framing (Bytes)

namespace Ini

/-- White space that `trim` takes off. -/
def isTrimmed (b : UInt8) : Bool := b = 0x20 ∨ b = 0x09 ∨ b = 0x0d ∨ b = 0x0a

def trim (s : Bytes) : Bytes := (s.dropWhile isTrimmed).rdropWhile isTrimmed

/-- `toupper` of every byte, in the locale of C. -/
def toUpper (s : Bytes) : Bytes := s.map fun b => if 0x61 ≤ b ∧ b ≤ 0x7a then b - 0x20 else b

/-- `std::stoll`; `none` stands for what it throws, when there are no digits and when the number
does not fit in 64 bits. -/
def stoll (v : Bytes) : Option Int :=
  let (negative, rest) := match v.dropWhile Reader.isSpaceByte with
    | 0x2d :: rest => (true, rest)
    | 0x2b :: rest => (false, rest)
    | rest => (false, rest)
  match rest.takeWhile Reader.isDigitByte with
  | [] => none
  | ds =>
    let n : Int := if negative then -(digitsNumber (chars ds) : Int) else digitsNumber (chars ds)
    if -2 ^ 63 ≤ n ∧ n < 2 ^ 63 then some n else none

def parseU32 (v : Bytes) (fallback : UInt32) : UInt32 :=
  if v = [] then fallback
  else match stoll v with
    | none => fallback
    | some n =>
      if n < 0 then fallback
      else UInt32.ofInt n -- the cast drops what is above 32 bits

def parseU16 (v : Bytes) (fallback : UInt16) : UInt16 :=
  let n := parseU32 v fallback.toUInt32
  if n > 0xffff then fallback else n.toUInt16

end Ini

structure IniConfig where
  bridgeHost : Bytes
  bridgePort : UInt16
  connectTimeoutMs : UInt32
  requestTimeoutMs : UInt32
  traceLevel : Bytes
  logFile : Bytes
  services : Bytes → Option Bytes

namespace Ini

/-- A line `key=value` and the section that it stands in; the key as it is written. -/
structure Entry where
  sect : Bytes
  rawKey : Bytes
  val : Bytes

def Entry.key (e : Entry) : Bytes := toUpper e.rawKey

end Ini

namespace IniConfig

def defaults : IniConfig where
  bridgeHost := ascii "127.0.0.1"
  bridgePort := 9101
  connectTimeoutMs := 5000
  requestTimeoutMs := 30000
  traceLevel := ascii "INFO"
  logFile := []
  services _ := none

/-- What a line `key=value` changes; only a service keeps the case of its name. -/
def assign (cfg : IniConfig) (e : Ini.Entry) : IniConfig :=
  if e.sect = ascii "BRIDGE" then
    if e.key = ascii "HOST" then { cfg with bridgeHost := e.val }
    else if e.key = ascii "PORT" then
      { cfg with bridgePort := Ini.parseU16 e.val cfg.bridgePort }
    else if e.key = ascii "CONNECTTIMEOUTMS" then
      { cfg with connectTimeoutMs := Ini.parseU32 e.val cfg.connectTimeoutMs }
    else if e.key = ascii "REQUESTTIMEOUTMS" then
      { cfg with requestTimeoutMs := Ini.parseU32 e.val cfg.requestTimeoutMs }
    else cfg
  else if e.sect = ascii "TRACE" then
    if e.key = ascii "LEVEL" then { cfg with traceLevel := Ini.toUpper e.val }
    else if e.key = ascii "LOGFILE" then { cfg with logFile := e.val }
    else cfg
  else if e.sect = ascii "SERVICES" then
    { cfg with services := Function.update cfg.services e.rawKey (some e.val) }
  else cfg

end IniConfig

namespace Ini

inductive Line where
  | skipped
  | header (name : Bytes)
  | pair (rawKey val : Bytes)

/-- A comment starts at a `;` or a `#`. -/
def uncommented (line : Bytes) : Bytes := trim ((line.takeWhile (· ≠ 0x3b)).takeWhile (· ≠ 0x23))

def lineOf (raw : Bytes) : Line :=
  let line := uncommented raw
  if line = [] then .skipped
  else if line.head? = some 0x5b ∧ line.getLast? = some 0x5d then
    .header (toUpper line.tail.dropLast)
  else if 0x3d ∉ line then .skipped
  else
    let rawKey := trim (line.takeWhile (· ≠ 0x3d))
    if rawKey = [] then .skipped else .pair rawKey (trim (line.dropWhile (· ≠ 0x3d)).tail)

/-- The variables of the loop of `load_ini`. -/
structure Loading where
  sect : Bytes
  cfg : IniConfig

def readLine (s : Loading) (raw : Bytes) : Loading :=
  match lineOf raw with
  | .skipped => s
  | .header name => { s with sect := name }
  | .pair rawKey val => { s with cfg := s.cfg.assign ⟨s.sect, rawKey, val⟩ }

/-- `load_ini` for the text of the file that could be opened, if any could. -/
def loadIni : Option Bytes → IniConfig
  | none => .defaults
  | some text => ((text.splitOn 0x0a).foldl readLine ⟨[], .defaults⟩).cfg

end Ini

/-- The number that a row of digits denotes. -/
def iniNumber (v : Bytes) : Nat := digitsNumber (chars v)

@[simp] theorem iniNumber_nil : iniNumber [] = 0 := rfl

/-- What a setting of `bits` bits is to be for a row of digits: the number that it denotes when
that fits, the fallback otherwise. An empty row denotes no number. -/
def wanted (bits : Nat) (v : Bytes) (fallback : Nat) : Nat :=
  if v ≠ [] ∧ iniNumber v < 2 ^ bits then iniNumber v else fallback

/-- A row of digits with a number of `bits` bits. -/
structure Fits (bits : Nat) (v : Bytes) : Prop where
  nonempty : v ≠ []
  digits : ∀ b ∈ v, Reader.isDigitByte b = true
  small : iniNumber v < 2 ^ bits

namespace Ini

variable {v : Bytes}

theorem stoll_digits (hne : v ≠ []) (hv : ∀ b ∈ v, Reader.isDigitByte b = true) :
    stoll v = if iniNumber v < 2 ^ 63 then some (iniNumber v : Int) else none := by
  cases v with
  | nil => exact absurd rfl hne
  | cons b v =>
    obtain ⟨hspace, hminus, hplus⟩ := Reader.isDigitByte_plain (hv b (List.mem_cons_self ..))
    have hstart : (b :: v).dropWhile Reader.isSpaceByte = b :: v := by simp [hspace]
    have hall : (b :: v).takeWhile Reader.isDigitByte = b :: v := List.takeWhile_eq_self_iff.mpr hv
    rw [stoll, hstart]
    split
    rename_i heq
    split at heq
    · simp_all
    · simp_all
    · cases heq
      rw [hall]
      have hlow : -2 ^ 63 ≤ (digitsNumber (chars (b :: v)) : Int) := by omega
      have hhigh : (digitsNumber (chars (b :: v)) : Int) < 2 ^ 63 ↔
          iniNumber (b :: v) < 2 ^ 63 := by
        rw [iniNumber]
        omega
      simp only [Bool.false_eq_true, if_false, hlow, hhigh, true_and]
      rfl

theorem toNat_ofInt (n : Nat) : (UInt32.ofInt n).toNat = n % 2 ^ 32 := by
  have hcast : ((n : Int) % 2 ^ 32).toNat = n % 2 ^ 32 := by omega
  rw [UInt32.ofInt, hcast, UInt32.toNat_ofNat']
  omega

/-- A row of digits is cut to its last 32 bits, unless it has more than 63. -/
theorem parseU32_digits (hv : ∀ b ∈ v, Reader.isDigitByte b = true) (fallback : UInt32) :
    (parseU32 v fallback).toNat =
      if v ≠ [] ∧ iniNumber v < 2 ^ 63 then iniNumber v % 2 ^ 32 else fallback.toNat := by
  by_cases hne : v = []
  · simp [parseU32, hne]
  · rw [parseU32, if_neg hne, stoll_digits hne hv]
    by_cases hn : iniNumber v < 2 ^ 63
    · have hpos : ¬(iniNumber v : Int) < 0 := by omega
      simp only [hn, hne, hpos, if_true, if_false, ne_eq, not_false_eq_true, and_self,
        toNat_ofInt]
    · simp only [hn, if_false, and_false]

/-- The range test sees only the 32 bits that are left. -/
theorem parseU16_digits (hv : ∀ b ∈ v, Reader.isDigitByte b = true) (fallback : UInt16) :
    (parseU16 v fallback).toNat =
      if v ≠ [] ∧ iniNumber v < 2 ^ 63 ∧ iniNumber v % 2 ^ 32 < 2 ^ 16 then
        iniNumber v % 2 ^ 32
      else fallback.toNat := by
  have hn := parseU32_digits hv fallback.toUInt32
  have hfallback := fallback.toNat_lt
  have hgt : parseU32 v fallback.toUInt32 > 0xffff ↔
      0xffff < (parseU32 v fallback.toUInt32).toNat := UInt32.lt_iff_toNat_lt
  have hcast := UInt32.toNat_toUInt16 (parseU32 v fallback.toUInt32)
  rw [UInt16.toNat_toUInt32] at hn
  simp only [parseU16, hgt, apply_ite UInt16.toNat]
  by_cases hfits : v ≠ [] ∧ iniNumber v < 2 ^ 63
  · rw [if_pos hfits] at hn
    simp only [hfits.1, hfits.2, ne_eq, not_false_eq_true, true_and]
    split_ifs <;> omega
  · rw [if_neg hfits] at hn
    have hrest : ¬(v ≠ [] ∧ iniNumber v < 2 ^ 63 ∧ iniNumber v % 2 ^ 32 < 2 ^ 16) :=
      fun h => hfits ⟨h.1, h.2.1⟩
    rw [if_neg hrest]
    split_ifs <;> omega

theorem parseU32_fits (hv : Fits 32 v) (fallback : UInt32) :
    (parseU32 v fallback).toNat = iniNumber v := by
  have hsmall := hv.small
  have hheld : iniNumber v < 2 ^ 63 := by omega
  rw [parseU32_digits hv.digits, if_pos ⟨hv.nonempty, hheld⟩]
  exact Nat.mod_eq_of_lt hsmall

theorem parseU16_fits (hv : Fits 16 v) (fallback : UInt16) :
    (parseU16 v fallback).toNat = iniNumber v := by
  have hsmall := hv.small
  have hmod : iniNumber v % 2 ^ 32 = iniNumber v := by omega
  have hheld : iniNumber v < 2 ^ 63 := by omega
  rw [parseU16_digits hv.digits, hmod, if_pos ⟨hv.nonempty, hheld, hsmall⟩]

/-- A number of 32 bits or of more than 63 is treated as it should be; one between wraps, and then
only the fallback itself or, for a port, what the range test sees can come out right. -/
theorem parse_wanted_iff (hv : ∀ b ∈ v, Reader.isDigitByte b = true)
    (fallback : UInt32) (port : UInt16) :
    ((parseU32 v fallback).toNat = wanted 32 v fallback.toNat ↔
      iniNumber v < 2 ^ 32 ∨ 2 ^ 63 ≤ iniNumber v ∨ iniNumber v % 2 ^ 32 = fallback.toNat) ∧
    ((parseU16 v port).toNat = wanted 16 v port.toNat ↔
      iniNumber v < 2 ^ 32 ∨ 2 ^ 63 ≤ iniNumber v ∨ 2 ^ 16 ≤ iniNumber v % 2 ^ 32 ∨
        iniNumber v % 2 ^ 32 = port.toNat) := by
  rw [parseU32_digits hv, parseU16_digits hv, wanted, wanted]
  by_cases hne : v = []
  · simp [hne]
  · have hport := port.toNat_lt
    simp only [ne_eq, hne, not_false_eq_true, true_and]
    constructor
    · split_ifs <;> omega
    · split_ifs <;> omega

theorem parse_wanted_iff_default :
    ((parseU32 (ascii "30000") 5000).toNat = wanted 32 (ascii "30000") 5000 ↔
      iniNumber (ascii "30000") < 2 ^ 32 ∨ 2 ^ 63 ≤ iniNumber (ascii "30000") ∨
        iniNumber (ascii "30000") % 2 ^ 32 = 5000) ∧
    ((parseU16 (ascii "30000") 9101).toNat = wanted 16 (ascii "30000") 9101 ↔
      iniNumber (ascii "30000") < 2 ^ 32 ∨ 2 ^ 63 ≤ iniNumber (ascii "30000") ∨
        2 ^ 16 ≤ iniNumber (ascii "30000") % 2 ^ 32 ∨
        iniNumber (ascii "30000") % 2 ^ 32 = 9101) :=
  parse_wanted_iff (List.all_eq_true.mp (by decide)) 5000 9101

/-- 2 ^ 32 + 9101 is read as 9101, by both functions. -/
theorem parse_wraps :
    (ascii "4294976397").all Reader.isDigitByte = true ∧
    (parseU32 (ascii "4294976397") 5000).toNat ≠ wanted 32 (ascii "4294976397") 5000 ∧
    (parseU16 (ascii "4294976397") 80).toNat ≠ wanted 16 (ascii "4294976397") 80 := by
  decide

end Ini

end AtmXfs.Dll
