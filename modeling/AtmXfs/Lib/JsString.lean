import Mathlib.Data.List.DropRight
import Mathlib.Data.Nat.Digits.Lemmas

namespace Js

/-- A JavaScript string: its UTF-16 code units. -/
abbrev Text := List UInt16

instance : LawfulBEq Text := inferInstance

def utf16 (s : String) : Text := s.toList.flatMap fun c =>
  if c.toNat < 0x10000 then [c.toNat.toUInt16]
  else [(0xd800 + (c.toNat - 0x10000) / 0x400).toUInt16, (0xdc00 + c.toNat % 0x400).toUInt16]

def isDigitUnit (u : UInt16) : Bool := 48 ≤ u ∧ u ≤ 57

/-- An upper-case hex digit. -/
def isHexUnit (u : UInt16) : Bool := isDigitUnit u ∨ (65 ≤ u ∧ u ≤ 70)

/-- White space and line terminators. -/
def isSpaceUnit (u : UInt16) : Bool :=
  u ∈ [0x9, 0xa, 0xb, 0xc, 0xd, 0x20, 0xa0, 0x1680, 0x2028, 0x2029, 0x202f, 0x205f, 0x3000,
    0xfeff] ∨ (0x2000 ≤ u ∧ u ≤ 0x200a)

/-- A position in a string of the given length; `NaN` counts as 0. -/
def relative (length : Nat) : Option Int → Nat
  | none => 0
  | some n => if n < 0 then (length + n).toNat else min n.toNat length

namespace Text

/-- `s.replace(/\D/g, '')`. -/
def digitsOnly (s : Text) : Text := s.filter isDigitUnit

def trimEnd (s : Text) : Text := s.rdropWhile isSpaceUnit

def slice (s : Text) (start stop : Option Int) : Text :=
  (s.take (relative s.length stop)).drop (relative s.length start)

def sliceFrom (s : Text) (start : Option Int) : Text := s.drop (relative s.length start)

def padStart (s : Text) (n : Nat) (u : UInt16) : Text := List.leftpad n u s

def padEnd (s : Text) (n : Nat) (u : UInt16) : Text := List.rightpad n u s

end Text

/-- `String(n)`. -/
def decimal (n : Nat) : Text :=
  if n = 0 then [48] else (Nat.digits 10 n).reverse.map fun d => (48 + d).toUInt16

/-- The number that a row of digits is read as. -/
def digitsNumber (ds : Text) : Nat := ds.foldl (fun n u => n * 10 + (u.toNat - 48)) 0

/-- `parseInt(s, 10)`; `none` stands for `NaN`. -/
def parseInt (s : Text) : Option Int :=
  let (negative, rest) := match s.dropWhile isSpaceUnit with
    | 45 :: rest => (true, rest)
    | 43 :: rest => (false, rest)
    | rest => (false, rest)
  match rest.takeWhile isDigitUnit with
  | [] => none
  | ds => some (if negative then -(digitsNumber ds : Int) else digitsNumber ds)

def hexValue (u : UInt16) : Option Nat :=
  if isDigitUnit u then some (u.toNat - 48)
  else if 65 ≤ u ∧ u ≤ 70 then some (u.toNat - 55)
  else if 97 ≤ u ∧ u ≤ 102 then some (u.toNat - 87)
  else none

/-- `parseInt(s, 16)`; `none` stands for `NaN`. -/
def parseHex (s : Text) : Option Int :=
  let (negative, rest) := match s.dropWhile isSpaceUnit with
    | 45 :: rest => (true, rest)
    | 43 :: rest => (false, rest)
    | rest => (false, rest)
  let digits := match rest with
    | 48 :: 120 :: rest => rest
    | 48 :: 88 :: rest => rest
    | rest => rest
  match digits.takeWhile fun u => (hexValue u).isSome with
  | [] => none
  | ds =>
    let n := ds.foldl (fun n u => n * 16 + (hexValue u).getD 0) 0
    some (if negative then -(n : Int) else n)

theorem relative_natCast (length n : Nat) : relative length (some (n : Int)) = min n length := by
  simp [relative]

theorem slice_append (pre mid post : Text) {n : Nat} (hn : mid.length = n) :
    (pre ++ mid ++ post).slice (some pre.length) (some (pre.length + n)) = mid := by
  have hstart : relative (pre ++ mid ++ post).length (some pre.length) = pre.length := by
    rw [relative_natCast]
    simp
  have hstop : relative (pre ++ mid ++ post).length (some (pre.length + n)) =
      (pre ++ mid).length := by
    have hcast : (pre.length + n : Int) = ((pre ++ mid).length : Nat) := by simp [hn]
    rw [hcast, relative_natCast]
    simp
  rw [Text.slice, hstart, hstop, List.take_left, List.drop_left]

theorem digitsNumber_append (ds es : Text) :
    digitsNumber (ds ++ es) = es.foldl (fun n u => n * 10 + (u.toNat - 48)) (digitsNumber ds) := by
  simp [digitsNumber]

theorem digitsNumber_zeros (k : Nat) (ds : Text) :
    digitsNumber (List.replicate k 48 ++ ds) = digitsNumber ds := by
  have hzero : digitsNumber (List.replicate k 48) = 0 := by
    induction k with
    | zero => rfl
    | succ k ih =>
      rw [List.replicate_succ', digitsNumber_append, ih]
      rfl
  rw [digitsNumber_append, hzero]
  rfl

/-- A digit as a code unit. -/
theorem digit_unit {d : Nat} (hd : d < 10) :
    isDigitUnit (48 + d).toUInt16 = true ∧ (48 + d).toUInt16.toNat - 48 = d := by
  interval_cases d <;> decide

theorem digitsNumber_reverse (ds : List Nat) (hds : ∀ d ∈ ds, d < 10) :
    digitsNumber (ds.reverse.map fun d => (48 + d).toUInt16) = Nat.ofDigits 10 ds := by
  induction ds with
  | nil => rfl
  | cons d ds ih =>
    have hd := (digit_unit (hds d (List.mem_cons_self ..))).2
    have hrest := ih fun e he => hds e (List.mem_cons_of_mem _ he)
    rw [List.reverse_cons, List.map_append, digitsNumber_append, hrest, Nat.ofDigits_cons]
    simp only [List.map_cons, List.map_nil, List.foldl_cons, List.foldl_nil, hd]
    ring

theorem digitsNumber_decimal (n : Nat) : digitsNumber (decimal n) = n := by
  unfold decimal
  split_ifs with hn
  · subst hn
    rfl
  · rw [digitsNumber_reverse _ fun d hd => Nat.digits_lt_base (by decide) hd, Nat.ofDigits_digits]

theorem isDigitUnit_decimal (n : Nat) : ∀ u ∈ decimal n, isDigitUnit u = true := by
  intro u hu
  unfold decimal at hu
  split_ifs at hu with hn
  · cases List.mem_singleton.mp hu
    rfl
  · obtain ⟨d, hd, rfl⟩ := List.mem_map.mp hu
    exact (digit_unit (Nat.digits_lt_base (by decide) (List.mem_reverse.mp hd))).1

theorem length_decimal {n k : Nat} (hk : 0 < k) (hn : n < 10 ^ k) : (decimal n).length ≤ k := by
  unfold decimal
  split_ifs
  · exact hk
  · rw [List.length_map, List.length_reverse]
    exact (Nat.digits_length_le_iff (by decide) n).mpr hn

theorem slice_zero (s : Text) {n : Nat} (hn : s.length = n) : s.slice (some 0) (some n) = s := by
  simpa using slice_append [] s [] hn

theorem sliceFrom_neg (s : Text) {n : Nat} (hn : s.length = n) : s.sliceFrom (some (-n)) = s := by
  have hstart : relative s.length (some (-n)) = 0 := by
    rw [hn]
    by_cases hzero : n = 0
    · simp [relative, hzero]
    · simp [relative, Nat.pos_of_ne_zero hzero]
  rw [Text.sliceFrom, hstart, List.drop_zero]

theorem length_sliceFrom_neg {s : Text} {n : Nat} (hpos : 0 < n) (hn : n ≤ s.length) :
    (s.sliceFrom (some (-n))).length = n := by
  have hstart : relative s.length (some (-n)) = s.length - n := by
    simp only [relative]
    rw [if_pos (by omega)]
    omega
  rw [Text.sliceFrom, hstart, List.length_drop]
  omega

theorem length_padEnd {s : Text} {n : Nat} (hn : s.length ≤ n) (u : UInt16) :
    (s.padEnd n u).length = n := by
  rw [Text.padEnd, List.rightpad, List.length_append, List.length_replicate]
  omega

/-- Padding with spaces is what trimming takes away. -/
theorem trimEnd_padEnd (s : Text) (n : Nat) : (s.padEnd n 32).trimEnd = s.trimEnd := by
  rw [Text.padEnd, List.rightpad]
  induction n - s.length with
  | zero => simp
  | succ k ih =>
    rw [List.replicate_succ', ← List.append_assoc, Text.trimEnd, List.rdropWhile_concat_pos]
    · exact ih
    · rfl

theorem digitsOnly_eq {s : Text} (hs : ∀ u ∈ s, isDigitUnit u = true) : s.digitsOnly = s :=
  List.filter_eq_self.mpr hs

theorem padStart_eq {s : Text} {n : Nat} (hn : n ≤ s.length) (u : UInt16) : s.padStart n u = s := by
  rw [Text.padStart, List.leftpad, Nat.sub_eq_zero_of_le hn]
  rfl

theorem isDigitUnit_toNat {u : UInt16} (hu : isDigitUnit u = true) :
    48 ≤ u.toNat ∧ u.toNat ≤ 57 := by
  simpa [isDigitUnit, UInt16.le_iff_toNat_le] using hu

theorem isHexUnit_toNat {u : UInt16} (hu : isHexUnit u = true) :
    (48 ≤ u.toNat ∧ u.toNat ≤ 57) ∨ (65 ≤ u.toNat ∧ u.toNat ≤ 70) := by
  rcases of_decide_eq_true hu with hdigit | hletter
  · exact .inl (isDigitUnit_toNat hdigit)
  · exact .inr (by simpa [UInt16.le_iff_toNat_le] using hletter)

/-- No digit is a space or a sign. -/
theorem isDigitUnit_plain {u : UInt16} (hu : isDigitUnit u = true) :
    isSpaceUnit u = false ∧ u ≠ 45 ∧ u ≠ 43 := by
  have hu' : u = UInt16.ofNat u.toNat := by simp
  obtain ⟨hlow, hhigh⟩ := isDigitUnit_toNat hu
  rw [hu']
  interval_cases u.toNat <;> decide

/-- A row of digits is read to its end. -/
theorem parseInt_digits {ds : Text} (hne : ds ≠ []) (hds : ∀ u ∈ ds, isDigitUnit u = true) :
    parseInt ds = some (digitsNumber ds : Int) := by
  cases ds with
  | nil => exact absurd rfl hne
  | cons u ds =>
    obtain ⟨hspace, hminus, hplus⟩ := isDigitUnit_plain (hds u (List.mem_cons_self ..))
    have hstart : (u :: ds).dropWhile isSpaceUnit = u :: ds := by simp [hspace]
    have hall : (u :: ds).takeWhile isDigitUnit = u :: ds := List.takeWhile_eq_self_iff.mpr hds
    rw [parseInt, hstart]
    split
    rename_i heq
    split at heq
    · simp_all
    · simp_all
    · cases heq
      rw [hall]
      rfl

theorem isDigitUnit_padStart {s : Text} {k : Nat} (hs : ∀ u ∈ s, isDigitUnit u = true) :
    ∀ u ∈ s.padStart k 48, isDigitUnit u = true := by
  intro u hu
  rcases List.mem_append.mp hu with hzero | hdigit
  · rw [List.eq_of_mem_replicate hzero]
    rfl
  · exact hs u hdigit

/-- A number is read back from its digits with zeros in front. -/
theorem parseInt_padStart {n k : Nat} (hk : 0 < k) :
    parseInt ((decimal n).padStart k 48) = some (n : Int) := by
  have hvalue : digitsNumber ((decimal n).padStart k 48) = n := by
    rw [Text.padStart, List.leftpad, digitsNumber_zeros, digitsNumber_decimal]
  rw [parseInt_digits, hvalue]
  · intro hnil
    have hlength := congrArg List.length hnil
    simp only [Text.padStart, List.length_leftpad, List.length_nil] at hlength
    omega
  · exact isDigitUnit_padStart (isDigitUnit_decimal n)

theorem length_padStart {n k : Nat} (hk : 0 < k) (hn : n < 10 ^ k) :
    ((decimal n).padStart k 48).length = k := by
  rw [Text.padStart, List.length_leftpad]
  exact max_eq_left (length_decimal hk hn)

/-- The `n` units from `start` on. -/
theorem slice_drop_take (s : Text) (start n : Nat) :
    s.slice (some start) (some (start + n)) = (s.drop start).take n := by
  have hcast : (start + n : Int) = ((start + n : Nat) : Int) := by push_cast; rfl
  rw [Text.slice, hcast, relative_natCast, relative_natCast, List.take_eq_take_min]
  rw [min_assoc, min_self, ← List.take_eq_take_min, List.drop_take]
  by_cases hstart : start ≤ s.length
  · rw [min_eq_left hstart, Nat.add_sub_cancel_left]
  · have hmin : min start s.length = s.length := min_eq_right (Nat.le_of_not_le hstart)
    rw [hmin, List.drop_length, List.drop_eq_nil_of_le (Nat.le_of_not_le hstart)]
    simp

theorem digitsNumber_concat (ds : Text) (u : UInt16) :
    digitsNumber (ds ++ [u]) = digitsNumber ds * 10 + (u.toNat - 48) :=
  digitsNumber_append ds [u]

theorem digitsNumber_lt {ds : Text} (hds : ∀ u ∈ ds, isDigitUnit u = true) :
    digitsNumber ds < 10 ^ ds.length := by
  induction ds using List.reverseRecOn with
  | nil => simp [digitsNumber]
  | append_singleton ds u ih =>
    have hrest := ih fun v hv => hds v (by simp [hv])
    have hu := isDigitUnit_toNat (hds u (by simp))
    rw [digitsNumber_concat, List.length_append, List.length_singleton, pow_succ]
    omega

/-- Rows of digits of one length differ in their number. -/
theorem digitsNumber_injective {ds es : Text} (hds : ∀ u ∈ ds, isDigitUnit u = true)
    (hes : ∀ u ∈ es, isDigitUnit u = true) (hlength : ds.length = es.length)
    (h : digitsNumber ds = digitsNumber es) : ds = es := by
  induction ds using List.reverseRecOn generalizing es with
  | nil => exact (List.length_eq_zero_iff.mp hlength.symm).symm
  | append_singleton ds u ih =>
    cases es using List.reverseRecOn with
    | nil => simp at hlength
    | append_singleton es v =>
      rw [digitsNumber_concat, digitsNumber_concat] at h
      have hu := isDigitUnit_toNat (hds u (by simp))
      have hv := isDigitUnit_toNat (hes v (by simp))
      have hrest : ds = es := ih (fun w hw => hds w (by simp [hw]))
        (fun w hw => hes w (by simp [hw])) (by simpa using hlength) (by omega)
      have huv : u = v := UInt16.toNat_inj.mp (by omega)
      rw [hrest, huv]

/-- A row of digits is the padded decimal of its number. -/
theorem padStart_digitsNumber {ds : Text} {k : Nat} (hk : 0 < k) (hlength : ds.length = k)
    (hds : ∀ u ∈ ds, isDigitUnit u = true) :
    (decimal (digitsNumber ds)).padStart k 48 = ds := by
  have hbound : digitsNumber ds < 10 ^ k := by
    rw [← hlength]
    exact digitsNumber_lt hds
  apply digitsNumber_injective
  · exact isDigitUnit_padStart (isDigitUnit_decimal _)
  · exact hds
  · rw [length_padStart hk hbound, hlength]
  · rw [Text.padStart, List.leftpad, digitsNumber_zeros, digitsNumber_decimal]

/-- What trimming takes away comes back by padding, where it was spaces only. -/
theorem padEnd_trimEnd {s : Text} (hs : (s.rtakeWhile isSpaceUnit).all (· == 32) = true) :
    s.trimEnd.padEnd s.length 32 = s := by
  have hsplit : s.trimEnd ++ s.rtakeWhile isSpaceUnit = s :=
    List.rdropWhile_append_rtakeWhile
  have hspaces : s.rtakeWhile isSpaceUnit =
      List.replicate (s.rtakeWhile isSpaceUnit).length 32 :=
    List.eq_replicate_of_mem fun u hu => by simpa using List.all_eq_true.mp hs u hu
  have hlength := congrArg List.length hsplit
  rw [List.length_append] at hlength
  rw [Text.padEnd, List.rightpad, ← Nat.eq_sub_of_add_eq' hlength, ← hspaces, hsplit]

theorem rtakeWhile_padEnd {s : Text} {n : Nat} (htrim : s.trimEnd = s) :
    ((s.padEnd n 32).rtakeWhile isSpaceUnit).all (· == 32) = true := by
  have hsplit : (s.padEnd n 32).rdropWhile isSpaceUnit ++ (s.padEnd n 32).rtakeWhile isSpaceUnit =
      s.padEnd n 32 := List.rdropWhile_append_rtakeWhile
  have hhead : (s.padEnd n 32).rdropWhile isSpaceUnit = s := (trimEnd_padEnd s n).trans htrim
  have hspaces : (s.padEnd n 32).rtakeWhile isSpaceUnit = List.replicate (n - s.length) 32 := by
    rw [hhead] at hsplit
    exact List.append_cancel_left hsplit
  rw [hspaces, List.all_eq_true]
  intro u hu
  rw [List.eq_of_mem_replicate hu]
  rfl

@[simp] theorem trimEnd_trimEnd (s : Text) : s.trimEnd.trimEnd = s.trimEnd :=
  List.rdropWhile_idempotent isSpaceUnit s

end Js
