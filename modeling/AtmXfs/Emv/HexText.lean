import AtmXfs.Emv.Apdu

namespace AtmXfs.Emv

open Js

/-- `hex.replace(/\s+/g, '')`. -/
def cleaned (hex : Text) : Text := hex.filter fun u => !isSpaceUnit u

/-- A letter in upper case. -/
def upperUnit (u : UInt16) : UInt16 := if 97 ≤ u ∧ u ≤ 122 then u - 32 else u

/-- The text is refused, or it is the text of the bytes it is read as. -/
def Faithful (hex : Text) : Prop :=
  (∃ e, hexToBytes hex = .error e) ∨ ∃ bytes, hexToBytes hex = .ok bytes ∧
    utf16 (bytesToHex bytes) = (cleaned hex).map upperUnit

/-- A pair that begins with no hex digit, not even after a sign, or that only announces one. -/
def refused (u v : UInt16) : Bool :=
  (u = 48 ∧ (v = 120 ∨ v = 88)) ∨
    ((hexValue u).isNone ∧ ¬ ((u = 45 ∨ u = 43) ∧ (hexValue v).isSome))

def hasRefused : Text → Bool
  | u :: v :: rest => refused u v || hasRefused rest
  | _ => false

/-- Without its white space the text is of odd length, has a pair that is refused, or is made of
hex digits. -/
def HexOrRefused (hex : Text) : Prop :=
  (cleaned hex).length % 2 = 1 ∨ hasRefused (cleaned hex) = true ∨
    ∀ u ∈ cleaned hex, (hexValue u).isSome = true

theorem hexToBytes_eq (hex : Text) : hexToBytes hex =
    if (cleaned hex).length % 2 ≠ 0 then .error (.oddHex (cleaned hex).length)
    else readPairs 0 (cleaned hex) := rfl

theorem parseHex_signed {u v : UInt16} (hsign : u = 45 ∨ u = 43) :
    (parseHex [u, v]).isSome = (hexValue v).isSome := by
  have hspace : isSpaceUnit u = false := by
    rcases hsign with rfl | rfl
    · decide
    · decide
  cases hv : hexValue v with
  | none =>
    rcases hsign with rfl | rfl
    · simp [parseHex, List.dropWhile, hspace, hv]
    · simp [parseHex, List.dropWhile, hspace, hv]
  | some n =>
    rcases hsign with rfl | rfl
    · simp [parseHex, List.dropWhile, hspace, hv]
    · simp [parseHex, List.dropWhile, hspace, hv]

theorem parseHex_mark {v : UInt16} (hv : v = 120 ∨ v = 88) : parseHex [48, v] = none := by
  rcases hv with rfl | rfl
  · decide
  · decide

/-- What `parseInt` reads of the digits that follow sign and prefix. -/
def digitsRead (digits : Text) : Option Int :=
  match digits.takeWhile fun u => (hexValue u).isSome with
  | [] => none
  | ds => some ((ds.foldl (fun n u => n * 16 + (hexValue u).getD 0) 0 : Nat) : Int)

/-- A pair without sign and prefix is read as far as its hex digits go. -/
theorem parseHex_plain {u v : UInt16} (hspace : isSpaceUnit u = false)
    (hsign : ¬ (u = 45 ∨ u = 43)) (hmark : ¬ (u = 48 ∧ (v = 120 ∨ v = 88))) :
    parseHex [u, v] = digitsRead [u, v] := by
  rw [not_or] at hsign
  have hdrop : [u, v].dropWhile isSpaceUnit = [u, v] := by simp [List.dropWhile, hspace]
  rw [parseHex, hdrop]
  split
  next negative rest hhead =>
  split at hhead
  · next heq => exact absurd (List.cons.inj heq).1 hsign.1
  · next heq => exact absurd (List.cons.inj heq).1 hsign.2
  · obtain ⟨hpositive, hrest⟩ := Prod.mk.inj hhead
    subst hpositive hrest
    show digitsRead _ = digitsRead [u, v]
    apply congrArg
    split
    · next heq =>
      obtain ⟨hu, heq⟩ := List.cons.inj heq
      exact absurd ⟨hu, .inl (List.cons.inj heq).1⟩ hmark
    · next heq =>
      obtain ⟨hu, heq⟩ := List.cons.inj heq
      exact absurd ⟨hu, .inr (List.cons.inj heq).1⟩ hmark
    · exact Eq.refl [u, v]

theorem hexValue_some {u : UInt16} {n : Nat} (hu : hexValue u = some n) :
    n < 16 ∧ hexUnit n = upperUnit u ∧ isSpaceUnit u = false ∧ ¬ (u = 45 ∨ u = 43) ∧
      ¬ (u = 120 ∨ u = 88) := by
  have hlt : u.toNat < 103 := by
    by_contra hlarge
    have hbeyond : ∀ limit : UInt16, limit < 103 → ¬ u ≤ limit := by
      intro limit hlimit hle
      exact hlarge (Nat.lt_of_le_of_lt (UInt16.le_iff_toNat_le.mp hle)
        (UInt16.lt_iff_toNat_lt.mp hlimit))
    have hdigit : isDigitUnit u = false := decide_eq_false fun h => hbeyond 57 (by decide) h.2
    have hupper : ¬ (65 ≤ u ∧ u ≤ 70) := fun h => hbeyond 70 (by decide) h.2
    have hlower : ¬ (97 ≤ u ∧ u ≤ 102) := fun h => hbeyond 102 (by decide) h.2
    rw [hexValue, hdigit, if_neg (by decide), if_neg hupper, if_neg hlower] at hu
    cases hu
  have hall : ∀ k < 103, ∀ m ∈ hexValue k.toUInt16, m < 16 ∧
      hexUnit m = upperUnit k.toUInt16 ∧ isSpaceUnit k.toUInt16 = false ∧
      ¬ (k.toUInt16 = 45 ∨ k.toUInt16 = 43) ∧ ¬ (k.toUInt16 = 120 ∨ k.toUInt16 = 88) := by
    decide +kernel
  have hback : u.toNat.toUInt16 = u := UInt16.ofNat_toNat
  have hunit := hall u.toNat hlt n
  rw [hback] at hunit
  exact hunit hu

theorem hexValue_of_upper {u : UInt16} {n : Nat} (hn : n < 16) (hu : upperUnit u = hexUnit n) :
    (hexValue u).isSome = true := by
  have hall : ∀ m < 16, (hexValue (hexUnit m)).isSome = true ∧
      (97 ≤ hexUnit m + 32 → (hexValue (hexUnit m + 32)).isSome = true) := by decide
  by_cases hletter : 97 ≤ u ∧ u ≤ 122
  · rw [upperUnit, if_pos hletter] at hu
    have hsum : u = hexUnit n + 32 := by
      rw [← hu, UInt16.sub_add_cancel]
    rw [hsum]
    apply (hall n hn).2
    rw [← hsum]
    exact hletter.1
  · rw [upperUnit, if_neg hletter] at hu
    rw [hu]
    exact (hall n hn).1

/-- A pair of hex digits is read as the byte it spells. -/
theorem parseHex_pair {u v : UInt16} {high low : Nat} (hu : hexValue u = some high)
    (hv : hexValue v = some low) : parseHex [u, v] = some ((high * 16 + low : Nat) : Int) := by
  obtain ⟨-, -, hspace, hsign, -⟩ := hexValue_some hu
  obtain ⟨-, -, -, -, hmark⟩ := hexValue_some hv
  rw [parseHex_plain hspace hsign fun h => hmark h.2]
  simp [digitsRead, List.takeWhile, hu, hv]

/-- `parseInt` gives `NaN` for the pairs that `refused` names, and for no others. -/
theorem parseHex_none {u v : UInt16} (hspace : isSpaceUnit u = false) :
    (parseHex [u, v]).isNone = refused u v := by
  by_cases hsign : u = 45 ∨ u = 43
  · have hsome := parseHex_signed (v := v) hsign
    have hnone : hexValue u = none ∧ u ≠ 48 := by
      rcases hsign with rfl | rfl
      · decide
      · decide
    rw [← Option.not_isSome, hsome]
    cases hv : hexValue v with
    | none => simp [refused, hsign, hnone, hv]
    | some n => simp [refused, hsign, hnone, hv]
  by_cases hmark : u = 48 ∧ (v = 120 ∨ v = 88)
  · obtain ⟨rfl, hv⟩ := hmark
    rw [parseHex_mark hv]
    simp [refused, hv]
  · rw [parseHex_plain hspace hsign hmark]
    cases hu : hexValue u with
    | none => simp [digitsRead, refused, List.takeWhile, hsign, hmark, hu]
    | some n => simp [digitsRead, refused, List.takeWhile, hmark, hu]

theorem short_of_not_pair {cs : Text} (h : ∀ u v rest, cs = u :: v :: rest → False) :
    cs = [] ∨ ∃ u, cs = [u] := by
  cases cs with
  | nil => exact .inl rfl
  | cons u cs =>
    cases cs with
    | nil => exact .inr ⟨u, rfl⟩
    | cons v rest => exact (h u v rest rfl).elim

/-- The loop throws where one of the pairs is refused. -/
theorem readPairs_error {cs : Text} (hcs : ∀ u ∈ cs, isSpaceUnit u = false) (position : Nat) :
    (∃ e, readPairs position cs = .error e) ↔ hasRefused cs = true := by
  induction cs using hasRefused.induct generalizing position with
  | case1 u v rest ih =>
    have hrest := ih (fun w hw => hcs w (.tail _ (.tail _ hw))) (position + 2)
    have hpair := parseHex_none (v := v) (hcs u (.head _))
    rw [readPairs, hasRefused, Bool.or_eq_true, ← hrest, ← hpair]
    cases parseHex [u, v] with
    | none => simp
    | some byte =>
      cases readPairs (position + 2) rest with
      | error e => simp [bind, Except.bind]
      | ok bytes => simp [bind, Except.bind, pure, Except.pure]
  | case2 cs hshort =>
    have hnone : hasRefused cs = false ∧ readPairs position cs = .ok [] := by
      rcases short_of_not_pair hshort with rfl | ⟨u, rfl⟩
      · exact ⟨rfl, rfl⟩
      · exact ⟨rfl, rfl⟩
    rw [hnone.1, hnone.2]
    simp

/-- The byte read from two digits is written as the same digits. -/
theorem hexUnits_read {high low : Nat} (hhigh : high < 16) (hlow : low < 16) :
    hexUnits (((high * 16 + low : Nat) : Int) % 256).toNat.toUInt8 =
      [hexUnit high, hexUnit low] := by
  have hlt : high * 16 + low < 256 := by omega
  have hmod : (((high * 16 + low : Nat) : Int) % 256).toNat = high * 16 + low := by omega
  have hbyte : (high * 16 + low).toUInt8.toNat = high * 16 + low := UInt8.toNat_ofNat_of_lt' hlt
  have hdiv : (high * 16 + low) / 16 = high := by omega
  have hrest : (high * 16 + low) % 16 = low := by omega
  rw [hmod, hexUnits, hbyte, hdiv, hrest]

theorem readPairs_hex {cs : Text} (heven : cs.length % 2 = 0)
    (hcs : ∀ u ∈ cs, (hexValue u).isSome = true) (position : Nat) :
    ∃ bytes, readPairs position cs = .ok bytes ∧
      bytes.flatMap hexUnits = cs.map upperUnit := by
  induction cs using hasRefused.induct generalizing position with
  | case1 u v rest ih =>
    obtain ⟨high, hu⟩ := Option.isSome_iff_exists.mp (hcs u (.head _))
    obtain ⟨low, hv⟩ := Option.isSome_iff_exists.mp (hcs v (.tail _ (.head _)))
    have hpair := parseHex_pair hu hv
    obtain ⟨hhigh, hu', -⟩ := hexValue_some hu
    obtain ⟨hlow, hv', -⟩ := hexValue_some hv
    have heven' : rest.length % 2 = 0 := by
      have hlength : (u :: v :: rest).length = rest.length + 2 := rfl
      omega
    obtain ⟨bytes, hread, hbytes⟩ := ih heven'
      (fun w hw => hcs w (.tail _ (.tail _ hw))) (position + 2)
    refine ⟨(((high * 16 + low : Nat) : Int) % 256).toNat.toUInt8 :: bytes, ?_, ?_⟩
    · rw [readPairs, hpair]
      simp only [hread]
      rfl
    · rw [List.flatMap_cons, hexUnits_read hhigh hlow, hu', hv', hbytes]
      rfl
  | case2 cs hshort =>
    rcases short_of_not_pair hshort with rfl | ⟨u, rfl⟩
    · exact ⟨[], rfl, rfl⟩
    · exact absurd heven (by simp)

/-- A text in the letters of a byte text is made of hex digits. -/
theorem hex_of_units {bytes : List UInt8} {cs : Text}
    (h : bytes.flatMap hexUnits = cs.map upperUnit) : ∀ u ∈ cs, (hexValue u).isSome = true := by
  intro u hu
  have hmem : upperUnit u ∈ bytes.flatMap hexUnits := by
    rw [h]
    exact List.mem_map_of_mem hu
  obtain ⟨b, -, hb⟩ := List.mem_flatMap.mp hmem
  have hbyte := b.toNat_lt
  rcases List.mem_cons.mp hb with hu | hu
  · exact hexValue_of_upper (by omega) hu
  · exact hexValue_of_upper (Nat.mod_lt _ (by decide)) (List.mem_singleton.mp hu)

theorem cleaned_plain (hex : Text) : ∀ u ∈ cleaned hex, isSpaceUnit u = false := by
  intro u hu
  have hkept := (List.mem_filter.mp hu).2
  simpa using hkept

/-- A text is read faithfully exactly if, without its white space, it is of odd length, has a pair
that `parseInt` refuses, or consists of hex digits. Bytes always come back from their text. -/
theorem faithful_iff_hexOrRefused (hex : Text) (bytes : List UInt8) :
    (Faithful hex ↔ HexOrRefused hex) ∧ hexToBytes (utf16 (bytesToHex bytes)) = .ok bytes := by
  refine ⟨?_, hexToBytes_bytesToHex bytes⟩
  have hplain := cleaned_plain hex
  by_cases hodd : (cleaned hex).length % 2 = 1
  · have hthrow : hexToBytes hex = .error (.oddHex (cleaned hex).length) := by
      rw [hexToBytes_eq, if_pos (by omega)]
    exact ⟨fun _ => .inl hodd, fun _ => .inl ⟨_, hthrow⟩⟩
  have heven : (cleaned hex).length % 2 = 0 := by omega
  have hread : hexToBytes hex = readPairs 0 (cleaned hex) := by
    rw [hexToBytes_eq, if_neg (by omega)]
  have hthrows := readPairs_error hplain 0
  constructor
  · intro hfaithful
    rcases hfaithful with ⟨e, herror⟩ | ⟨bytes, -, hsame⟩
    · rw [hread] at herror
      exact .inr (.inl (hthrows.mp ⟨e, herror⟩))
    · rw [utf16_bytesToHex] at hsame
      exact .inr (.inr (hex_of_units hsame))
  · intro hcondition
    rcases hcondition with hodd' | hrefused | hhex
    · exact absurd hodd' hodd
    · obtain ⟨e, herror⟩ := hthrows.mpr hrefused
      exact .inl ⟨e, hread.trans herror⟩
    · obtain ⟨bytes, hok, hsame⟩ := readPairs_hex heven hhex 0
      exact .inr ⟨bytes, hread.trans hok, (utf16_bytesToHex bytes).trans hsame⟩

/-- `1g` is read as the byte 1, whose text is `01`. -/
theorem half_pair_read : ¬ Faithful (utf16 "1g") := by
  have hread : hexToBytes (utf16 "1g") = .ok [1] := by decide
  have htext : utf16 (bytesToHex [1]) ≠ (cleaned (utf16 "1g")).map upperUnit := by decide
  intro hfaithful
  rcases hfaithful with ⟨e, herror⟩ | ⟨bytes, hok, hsame⟩
  · rw [hread] at herror
    cases herror
  · rw [hread] at hok
    cases hok
    exact htext hsame

end AtmXfs.Emv
