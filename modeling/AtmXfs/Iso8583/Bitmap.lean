import AtmXfs.Lib.JsString
import Mathlib.Data.List.Perm.Basic

namespace AtmXfs.Iso8583

open Js

/-- A nibble as an upper-case hex digit. -/
def hexUnit (nibble : Nat) : UInt16 :=
  (if nibble < 10 then 48 + nibble else 55 + nibble).toUInt16

/-- `parseInt` of a single character to base 16. -/
def hexDigit (u : UInt16) : Option Nat :=
  if isDigitUnit u then some (u.toNat - 48)
  else if 65 ≤ u ∧ u ≤ 70 then some (u.toNat - 55)
  else if 97 ≤ u ∧ u ≤ 102 then some (u.toNat - 87)
  else none

def setBit (bits : List Bool) (f : Int) : Except String (List Bool) :=
  if f < 1 ∨ 64 < f then .error s!"field {f} outside primary bitmap range"
  else .ok (bits.set (f - 1).toNat true)

/-- Four bits, the first one on top. -/
def nibbleOf (bit : Nat → Bool) : Nat :=
  (List.range 4).foldl (fun nibble b => nibble <<< 1 ||| (bit b).toNat) 0

def hexOf (bits : List Bool) : Text :=
  (List.range 16).map fun i => hexUnit (nibbleOf fun b => bits.getD (i * 4 + b) false)

def fieldsToBitmap (fields : List Int) : Except String Text := do
  let bits ← fields.foldlM setBit (List.replicate 64 false)
  return hexOf bits

/-- Bit `b` from the top of the nibble a character stands for; `NaN` shifts as 0. -/
def bitOf (u : UInt16) (b : Nat) : Bool := (hexDigit u).getD 0 >>> (3 - b) &&& 1 = 1

def bitmapToFields (hex : Text) : Except String (List Int) :=
  let length := hex.length
  if length ≠ 16 then .error s!"bitmap must be 16 hex chars, got {length}"
  else .ok <| (List.range 16).flatMap fun i => (List.range 4).filterMap fun b =>
    if bitOf (hex.getD i 48) b then some ((i * 4 + b + 1 : Nat) : Int) else none

theorem bitOf_nibbleOf (bit : Nat → Bool) {b : Nat} (hb : b < 4) :
    bitOf (hexUnit (nibbleOf bit)) b = bit b := by
  have hall : ∀ b₀ b₁ b₂ b₃ : Bool, ∀ b < 4,
      let bits := [b₀, b₁, b₂, b₃]
      bitOf (hexUnit (bits.foldl (fun nibble b => nibble <<< 1 ||| b.toNat) 0)) b =
        bits.getD b false := by decide
  have hbits := hall (bit 0) (bit 1) (bit 2) (bit 3) b hb
  interval_cases b <;> exact hbits

/-- The fields whose bits are set, in ascending order. -/
def fieldsOf (bits : List Bool) : List Int :=
  (List.range 64).filterMap fun k => if bits.getD k false then some ((k + 1 : Nat) : Int) else none

@[simp] theorem length_hexOf (bits : List Bool) : (hexOf bits).length = 16 := by simp [hexOf]

theorem bitmapToFields_hexOf (bits : List Bool) :
    bitmapToFields (hexOf bits) = .ok (fieldsOf bits) := by
  have hrange : (List.range 64) = (List.range 16).flatMap fun i =>
      (List.range 4).map fun b => i * 4 + b := by decide
  rw [bitmapToFields, if_neg (by simp), fieldsOf, hrange, List.filterMap_flatMap]
  congr 1
  apply List.flatMap_congr
  intro i hi
  rw [List.filterMap_map]
  apply List.filterMap_congr
  intro b hb
  rw [List.mem_range] at hi hb
  simp [hexOf, hi, bitOf_nibbleOf _ hb]

theorem mem_fieldsOf {bits : List Bool} {f : Int} :
    f ∈ fieldsOf bits ↔ 1 ≤ f ∧ f ≤ 64 ∧ bits.getD (f - 1).toNat false = true := by
  simp only [fieldsOf, List.mem_filterMap, List.mem_range, Option.ite_none_right_eq_some,
    Option.some.injEq]
  constructor
  · rintro ⟨k, hk, hbit, rfl⟩
    have hindex : (((k + 1 : Nat) : Int) - 1).toNat = k := by omega
    exact ⟨by omega, by omega, by rwa [hindex]⟩
  · rintro ⟨hlow, hhigh, hbit⟩
    exact ⟨(f - 1).toNat, by omega, hbit, by omega⟩

theorem fieldsOf_ascending (bits : List Bool) : (fieldsOf bits).Pairwise (· < ·) := by
  apply List.Pairwise.filterMap _ _ List.pairwise_lt_range
  intro k k' hlt f hf f' hf'
  simp only [Option.ite_none_right_eq_some, Option.some.injEq] at hf hf'
  omega

/-- Every field is in range, and its bit is set besides those set before. -/
theorem setBits_spec {fields : List Int} {bits bits' : List Bool} (hlength : bits.length = 64)
    (h : fields.foldlM setBit bits = .ok bits') (f : Int) :
    (f ∈ fieldsOf bits' ↔ f ∈ fields ∨ f ∈ fieldsOf bits) := by
  induction fields generalizing bits with
  | nil =>
    cases h
    simp
  | cons g fields ih =>
    rw [List.foldlM_cons, setBit] at h
    split_ifs at h with hrange
    · cases h
    · have hrest := ih (by simpa using hlength) h
      have hset : f ∈ fieldsOf (bits.set (g - 1).toNat true) ↔ f = g ∨ f ∈ fieldsOf bits := by
        by_cases hfg : f = g
        · subst hfg
          simp only [mem_fieldsOf, true_or, iff_true]
          refine ⟨by omega, by omega, ?_⟩
          rw [List.getD_eq_getElem?_getD, List.getElem?_set_self (by omega)]
          rfl
        · simp only [mem_fieldsOf, hfg, false_or]
          refine and_congr_right fun hlow => and_congr_right fun hhigh => ?_
          rw [List.getD_eq_getElem?_getD, List.getElem?_set_ne (by omega),
            List.getD_eq_getElem?_getD]
      rw [hrest, hset, List.mem_cons]
      tauto

theorem fieldsToBitmap_eq_ok {fields : List Int} {hex : Text}
    (h : fieldsToBitmap fields = .ok hex) :
    ∃ bits, fields.foldlM setBit (List.replicate 64 false) = .ok bits ∧
      hex = hexOf bits := by
  rw [fieldsToBitmap] at h
  cases hbits : fields.foldlM setBit (List.replicate 64 false) with
  | error e =>
    rw [hbits] at h
    cases h
  | ok bits =>
    rw [hbits] at h
    cases h
    exact ⟨bits, rfl, rfl⟩

theorem length_fieldsToBitmap {fields : List Int} {hex : Text}
    (h : fieldsToBitmap fields = .ok hex) : hex.length = 16 := by
  obtain ⟨bits, -, rfl⟩ := fieldsToBitmap_eq_ok h
  exact length_hexOf bits

theorem bitmapToFields_fieldsToBitmap {fields : List Int} {hex : Text}
    (hascending : fields.Pairwise (· < ·)) (h : fieldsToBitmap fields = .ok hex) :
    bitmapToFields hex = .ok fields := by
  obtain ⟨bits, hbits, rfl⟩ := fieldsToBitmap_eq_ok h
  have hempty : fieldsOf (List.replicate 64 false) = [] := by decide
  have hmem (f : Int) : f ∈ fieldsOf bits ↔ f ∈ fields := by
    rw [setBits_spec (by simp) hbits, hempty]
    simp
  have hperm : (fieldsOf bits).Perm fields :=
    (List.perm_ext_iff_of_nodup (fieldsOf_ascending bits).nodup hascending.nodup).mpr hmem
  rw [bitmapToFields_hexOf, hperm.eq_of_pairwise' (fieldsOf_ascending bits) hascending]

theorem nibbleOf_congr {bit bit' : Nat → Bool} (h : ∀ b < 4, bit b = bit' b) :
    nibbleOf bit = nibbleOf bit' := by
  rw [nibbleOf, nibbleOf]
  apply List.foldl_ext
  intro nibble b hb
  rw [h b (List.mem_range.mp hb)]

theorem isHexUnit_hexUnit (bit : Nat → Bool) : isHexUnit (hexUnit (nibbleOf bit)) = true := by
  have hall : ∀ b₀ b₁ b₂ b₃ : Bool, isHexUnit (hexUnit
      ([b₀, b₁, b₂, b₃].foldl (fun nibble b => nibble <<< 1 ||| b.toNat) 0)) = true := by decide
  exact hall (bit 0) (bit 1) (bit 2) (bit 3)

/-- An upper-case hex digit is written from its own four bits. -/
theorem hexUnit_bitOf {u : UInt16} (hu : isHexUnit u = true) :
    hexUnit (nibbleOf (bitOf u)) = u := by
  have hu' : u = UInt16.ofNat u.toNat := by simp
  rw [hu']
  rcases isHexUnit_toNat hu with ⟨hlow, hhigh⟩ | ⟨hlow, hhigh⟩ <;>
    interval_cases u.toNat <;> decide

theorem mem_bitmapToFields {hex : Text} {fields : List Int} (h : bitmapToFields hex = .ok fields)
    {f : Int} : f ∈ fields ↔
      ∃ i < 16, ∃ b < 4, bitOf (hex.getD i 48) b = true ∧ ((i * 4 + b + 1 : Nat) : Int) = f := by
  rw [bitmapToFields] at h
  split_ifs at h
  cases h
  simp only [List.mem_flatMap, List.mem_range, List.mem_filterMap, Option.ite_none_right_eq_some,
    Option.some.injEq]

theorem bitmapToFields_ascending {hex : Text} {fields : List Int}
    (h : bitmapToFields hex = .ok fields) : fields.Pairwise (· < ·) := by
  rw [bitmapToFields] at h
  split_ifs at h
  cases h
  rw [List.pairwise_flatMap]
  constructor
  · intro i hi
    apply List.Pairwise.filterMap _ _ List.pairwise_lt_range
    intro b b' hlt f hf f' hf'
    simp only [Option.ite_none_right_eq_some, Option.some.injEq] at hf hf'
    omega
  · apply List.pairwise_lt_range.imp
    intro i i' hlt f hf f' hf'
    simp only [List.mem_filterMap, List.mem_range, Option.ite_none_right_eq_some,
      Option.some.injEq] at hf hf'
    obtain ⟨b, hb, -, rfl⟩ := hf
    obtain ⟨b', hb', -, rfl⟩ := hf'
    omega

theorem setBits_of_range {fields : List Int} (bits : List Bool)
    (h : ∀ f ∈ fields, 1 ≤ f ∧ f ≤ 64) : ∃ bits', fields.foldlM setBit bits = .ok bits' := by
  induction fields generalizing bits with
  | nil => exact ⟨bits, rfl⟩
  | cons f fields ih =>
    have hf := h f (List.mem_cons_self ..)
    have hset : setBit bits f = .ok (bits.set (f - 1).toNat true) := if_neg (by omega)
    rw [List.foldlM_cons, hset]
    exact ih _ fun g hg => h g (List.mem_cons_of_mem _ hg)

/-- A bitmap in upper-case hex is written back as it was read. -/
theorem fieldsToBitmap_bitmapToFields {hex : Text} {fields : List Int} (hlength : hex.length = 16)
    (hhex : ∀ u ∈ hex, isHexUnit u = true) (h : bitmapToFields hex = .ok fields) :
    fieldsToBitmap fields = .ok hex := by
  have hrange : ∀ f ∈ fields, 1 ≤ f ∧ f ≤ 64 := by
    intro f hf
    obtain ⟨i, hi, b, hb, -, rfl⟩ := (mem_bitmapToFields h).mp hf
    omega
  obtain ⟨bits, hbits⟩ := setBits_of_range (List.replicate 64 false) hrange
  have hempty : fieldsOf (List.replicate 64 false) = [] := by decide
  have hmem (f : Int) : f ∈ fieldsOf bits ↔ f ∈ fields := by
    rw [setBits_spec (by simp) hbits, hempty]
    simp
  have hbit (i : Nat) (hi : i < 16) (b : Nat) (hb : b < 4) :
      bits.getD (i * 4 + b) false = bitOf (hex.getD i 48) b := by
    rw [Bool.eq_iff_iff]
    have hread := hmem ((i * 4 + b + 1 : Nat) : Int)
    rw [mem_fieldsOf, mem_bitmapToFields h] at hread
    have hindex : (((i * 4 + b + 1 : Nat) : Int) - 1).toNat = i * 4 + b := by omega
    rw [hindex] at hread
    constructor
    · intro hset
      obtain ⟨j, hj, c, hc, hcbit, heq⟩ := hread.mp ⟨by omega, by omega, hset⟩
      have hij : j = i := by omega
      have hbc : c = b := by omega
      rwa [hij, hbc] at hcbit
    · intro hset
      exact (hread.mpr ⟨i, hi, b, hb, hset, rfl⟩).2.2
  have hback : hexOf bits = hex := by
    apply List.ext_getElem
    · rw [length_hexOf, hlength]
    · intro i hi hi'
      have hi16 : i < 16 := by simpa using hi
      have hunit : hex.getD i 48 = hex[i] := by simp [hi']
      have hnibble := nibbleOf_congr (hbit i hi16)
      simp only [hexOf, List.getElem_map, List.getElem_range, hnibble, hunit]
      exact hexUnit_bitOf (hhex _ (List.getElem_mem hi'))
  rw [fieldsToBitmap, hbits, ← hback]
  rfl

theorem isHexUnit_fieldsToBitmap {fields : List Int} {hex : Text}
    (h : fieldsToBitmap fields = .ok hex) : ∀ u ∈ hex, isHexUnit u = true := by
  obtain ⟨bits, -, rfl⟩ := fieldsToBitmap_eq_ok h
  intro u hu
  obtain ⟨i, -, rfl⟩ := List.mem_map.mp hu
  exact isHexUnit_hexUnit _

end AtmXfs.Iso8583
