import AtmXfs.Pin.Device

namespace AtmXfs.Pin

open Js

/-- The value of a hex digit. -/
def nibble (c : Char) : Nat := (digitValue c).getD 0

/-- The PAN field of ISO 9564 format 0. -/
def panField (pan : String) : List Char := ['0', '0', '0', '0'] ++ panDigits pan

/-- The decoding of ISO 9564 format 0: the block exclusive-or the PAN field is the control nibble
0, the number of digits, the digits and a padding of F. -/
def decodeIso0 (block : List Char) (pan : String) : Option (List Char) :=
  match List.zipWith (· ^^^ ·) (block.map nibble) ((panField pan).map nibble) with
  | 0 :: n :: rest =>
    if 4 ≤ n ∧ n ≤ 12 ∧ (rest.take n).all (· < 10) ∧ (rest.drop n).all (· = 15) then
      some ((rest.take n).map hexDigit)
    else none
  | _ => none

theorem nibble_hexDigit {n : Nat} (h : n < 16) : nibble (hexDigit n) = n := by
  have hall : ∀ n < 16, nibble (hexDigit n) = n := by decide
  exact hall n h

theorem isDigit_hexDigit {n : Nat} (h : n < 16) : isDigit 16 (hexDigit n) = true := by
  have hall : ∀ n < 16, isDigit 16 (hexDigit n) = true := by decide
  exact hall n h

theorem nibble_lt {radix : Nat} {c : Char} (h : isDigit radix c = true) : nibble c < radix := by
  unfold isDigit at h
  unfold nibble
  cases hv : digitValue c with
  | none => simp [hv] at h
  | some v => simpa [hv] using h

/-- A decimal digit is the hex digit of its value. -/
theorem hexDigit_nibble {c : Char} (h : isDigit 10 c = true) : hexDigit (nibble c) = c := by
  have hlt := nibble_lt h
  have hall : ∀ v < 10, hexDigit v = Char.ofNat (48 + v) := by decide
  have hcode : c.toNat = 48 + nibble c := by
    unfold isDigit digitValue at h
    unfold nibble digitValue at hlt ⊢
    split_ifs at h hlt ⊢ with hdigit hlower hupper
    · have hle : '0'.toNat ≤ c.toNat := hdigit.1
      simp only [Option.getD_some]
      have hzero : '0'.toNat = 48 := rfl
      omega
    · simp at h
    · simp at h
    · simp at h
  rw [hall _ hlt, ← hcode]
  exact Char.ofNat_toNat c

theorem xor_lt_sixteen {a b : Nat} (ha : a < 16) (hb : b < 16) : a ^^^ b < 16 := by
  have hpow : (2 : Nat) ^ 4 = 16 := rfl
  rw [← hpow] at ha hb ⊢
  exact Nat.xor_lt_two_pow ha hb

/-- A second exclusive or with the same values undoes the first. -/
theorem zipWith_xor_xor {as bs : List Nat} (h : as.length = bs.length) :
    List.zipWith (· ^^^ ·) (List.zipWith (· ^^^ ·) as bs) bs = as := by
  induction as generalizing bs with
  | nil => simp
  | cons a as ih =>
    cases bs with
    | nil => simp at h
    | cons b bs =>
      have hlength : as.length = bs.length := by simpa using h
      simp only [List.zipWith_cons_cons, ih hlength, Nat.xor_assoc, Nat.xor_self, Nat.xor_zero]

theorem nibbles_xorHex {a b : List Char} (ha : ∀ c ∈ a, nibble c < 16)
    (hb : ∀ c ∈ b, nibble c < 16) :
    (xorHex a b).map nibble = List.zipWith (· ^^^ ·) (a.map nibble) (b.map nibble) := by
  induction a generalizing b with
  | nil => simp [xorHex]
  | cons x a ih =>
    cases b with
    | nil => simp [xorHex]
    | cons y b =>
      have hx : nibble x < 16 := ha x List.mem_cons_self
      have hy : nibble y < 16 := hb y List.mem_cons_self
      have hrest := ih (fun c hc => ha c (List.mem_cons_of_mem x hc))
        fun c hc => hb c (List.mem_cons_of_mem y hc)
      have hhead : nibble (hexDigit ((digitValue x).getD 0 ^^^ (digitValue y).getD 0)) =
          nibble x ^^^ nibble y := nibble_hexDigit (xor_lt_sixteen hx hy)
      unfold xorHex at hrest ⊢
      simp only [List.zipWith_cons_cons, List.map_cons, hhead, hrest]

theorem isDigit_xorHex {a b : List Char} (ha : ∀ c ∈ a, nibble c < 16)
    (hb : ∀ c ∈ b, nibble c < 16) : ∀ c ∈ xorHex a b, isDigit 16 c = true := by
  induction a generalizing b with
  | nil => simp [xorHex]
  | cons x a ih =>
    cases b with
    | nil => simp [xorHex]
    | cons y b =>
      have hx : nibble x < 16 := ha x List.mem_cons_self
      have hy : nibble y < 16 := hb y List.mem_cons_self
      have hrest := ih (fun c hc => ha c (List.mem_cons_of_mem x hc))
        fun c hc => hb c (List.mem_cons_of_mem y hc)
      intro c hc
      rcases List.mem_cons.mp hc with rfl | hc
      · exact isDigit_hexDigit (xor_lt_sixteen hx hy)
      · exact hrest c hc

/-- Whatever the text of the PAN, twelve digits of it or zeros are used. -/
theorem panDigits_length (pan : String) : (panDigits pan).length = 12 := by
  unfold panDigits
  simp only [List.length_append, List.length_replicate, List.length_dropLast, List.length_drop]
  omega

theorem panField_nibbles (pan : String) : ∀ c ∈ panField pan, nibble c < 16 := by
  have hzero : nibble '0' < 16 := by decide
  intro c hc
  rcases List.mem_append.mp hc with hc | hc
  · have heq : c = '0' := by simpa using hc
    rw [heq]
    exact hzero
  · rcases List.mem_append.mp hc with hpad | hdigit
    · rw [List.eq_of_mem_replicate hpad]
      exact hzero
    · have hmem := List.mem_of_mem_drop (List.dropLast_subset _ hdigit)
      have hlt := nibble_lt (List.mem_filter.mp hmem).2
      omega

theorem panField_length (pan : String) : (panField pan).length = 16 := by
  rw [panField, List.length_append, panDigits_length]
  rfl

/-- The PIN field: control nibble, number of digits, digits, padding. -/
def pinField (pin : List Char) : List Char :=
  '0' :: hexDigit pin.length :: pin ++ List.replicate (14 - pin.length) 'F'

theorem buildIso0PinBlock_eq {pin : List Char} (hmin : 4 ≤ pin.length) (hmax : pin.length ≤ 12)
    (pan : String) : buildIso0PinBlock pin pan =
      .ok (String.ofList (xorHex (pinField pin) (panField pan))) := by
  have hvalid : ¬ (pin.length < 4 ∨ 12 < pin.length) := by omega
  rw [buildIso0PinBlock, if_neg hvalid]
  rfl

theorem pinField_length {pin : List Char} (hmax : pin.length ≤ 12) :
    (pinField pin).length = 16 := by
  simp only [pinField, List.cons_append, List.length_cons, List.length_append,
    List.length_replicate]
  omega

theorem pinField_nibbles {pin : List Char} (hmax : pin.length ≤ 12) :
    (pinField pin).map nibble =
      0 :: pin.length :: pin.map nibble ++ List.replicate (14 - pin.length) 15 := by
  have hlength : nibble (hexDigit pin.length) = pin.length := nibble_hexDigit (by omega)
  simp only [pinField, List.cons_append, List.map_cons, List.map_append, List.map_replicate,
    hlength]
  rfl

theorem pinField_lt {pin : List Char} (hdigits : ∀ c ∈ pin, isDigit 10 c = true)
    (hmax : pin.length ≤ 12) : ∀ c ∈ pinField pin, nibble c < 16 := by
  intro c hc
  have hmem : nibble c ∈ (pinField pin).map nibble := List.mem_map_of_mem hc
  rw [pinField_nibbles hmax] at hmem
  simp only [List.cons_append, List.mem_cons, List.mem_append, List.mem_map,
    List.mem_replicate] at hmem
  rcases hmem with hzero | hlength | ⟨d, hd, heq⟩ | ⟨-, hpad⟩
  · omega
  · omega
  · have hlt := nibble_lt (hdigits d hd)
    omega
  · omega

/-- The exclusive or with the PAN field is undone by the same field. -/
theorem pinField_undone {pin : List Char} (hdigits : ∀ c ∈ pin, isDigit 10 c = true)
    (hmax : pin.length ≤ 12) (pan : String) :
    List.zipWith (· ^^^ ·) ((xorHex (pinField pin) (panField pan)).map nibble)
      ((panField pan).map nibble) =
        0 :: pin.length :: pin.map nibble ++ List.replicate (14 - pin.length) 15 := by
  rw [nibbles_xorHex (pinField_lt hdigits hmax) (panField_nibbles pan), ← pinField_nibbles hmax]
  apply zipWith_xor_xor
  rw [List.length_map, List.length_map, pinField_length hmax, panField_length]

/-- A field of digits and padding passes the checks of the decoding. -/
theorem decodeIso0_undone {pin block : List Char} {pan : String}
    (hdigits : ∀ c ∈ pin, isDigit 10 c = true) (hmin : 4 ≤ pin.length) (hmax : pin.length ≤ 12)
    (hundone : List.zipWith (· ^^^ ·) (block.map nibble) ((panField pan).map nibble) =
      0 :: pin.length :: pin.map nibble ++ List.replicate (14 - pin.length) 15) :
    decodeIso0 block pan = some pin := by
  have hcount : (pin.map nibble).length = pin.length := List.length_map nibble
  have htake : (pin.map nibble ++ List.replicate (14 - pin.length) 15).take pin.length =
      pin.map nibble := by
    rw [← hcount]
    exact List.take_left
  have hdrop : (pin.map nibble ++ List.replicate (14 - pin.length) 15).drop pin.length =
      List.replicate (14 - pin.length) 15 := by
    rw [← hcount]
    exact List.drop_left
  have hback : (pin.map nibble).map hexDigit = pin := by
    rw [List.map_map]
    apply (List.map_congr_left _).trans (List.map_id pin)
    intro c hc
    exact hexDigit_nibble (hdigits c hc)
  have hpin : ∀ c ∈ pin, nibble c < 10 := fun c hc => nibble_lt (hdigits c hc)
  have hchecks : 4 ≤ pin.length ∧ pin.length ≤ 12 ∧ (pin.map nibble).all (· < 10) = true ∧
      (List.replicate (14 - pin.length) 15).all (· = 15) = true := by
    refine ⟨hmin, hmax, ?_, ?_⟩
    · simpa using hpin
    · simp
  rw [decodeIso0, hundone, List.cons_append, List.cons_append]
  simp only [htake, hdrop]
  rw [if_pos hchecks, hback]

theorem iso0_round_trip {pin : List Char} (hdigits : ∀ c ∈ pin, isDigit 10 c = true)
    (hmin : 4 ≤ pin.length) (hmax : pin.length ≤ 12) (pan : String) :
    ∃ block, buildIso0PinBlock pin pan = .ok block ∧ block.toList.length = 16 ∧
      (∀ c ∈ block.toList, isDigit 16 c = true) ∧ decodeIso0 block.toList pan = some pin := by
  refine ⟨_, buildIso0PinBlock_eq hmin hmax pan, ?_, ?_, ?_⟩
  · rw [String.toList_ofList, xorHex, List.length_zipWith, pinField_length hmax, panField_length]
    rfl
  · rw [String.toList_ofList]
    exact isDigit_xorHex (pinField_lt hdigits hmax) (panField_nibbles pan)
  · rw [String.toList_ofList]
    exact decodeIso0_undone hdigits hmin hmax (pinField_undone hdigits hmax pan)

/-- A PIN of four to twelve digits is built into a block of sixteen hex digits, for any text of a
PAN, and its decoding with that PAN gives the PIN back; no other PIN has the same block. -/
theorem iso0_decodes {pin : List Char} (hdigits : ∀ c ∈ pin, isDigit 10 c = true)
    (hmin : 4 ≤ pin.length) (hmax : pin.length ≤ 12) (pan : String) :
    ∃ block, buildIso0PinBlock pin pan = .ok block ∧ block.toList.length = 16 ∧
      (∀ c ∈ block.toList, isDigit 16 c = true) ∧ decodeIso0 block.toList pan = some pin ∧
      ∀ pin', (∀ c ∈ pin', isDigit 10 c = true) → 4 ≤ pin'.length → pin'.length ≤ 12 →
        buildIso0PinBlock pin' pan = .ok block → pin' = pin := by
  obtain ⟨block, hbuild, hlength, hhex, hdecode⟩ := iso0_round_trip hdigits hmin hmax pan
  refine ⟨block, hbuild, hlength, hhex, hdecode, ?_⟩
  intro pin' hdigits' hmin' hmax' hsame
  obtain ⟨block', hbuild', -, -, hdecode'⟩ := iso0_round_trip hdigits' hmin' hmax' pan
  rw [hsame] at hbuild'
  cases hbuild'
  rw [hdecode] at hdecode'
  exact (Option.some.inj hdecode').symm

theorem iso0_decodes_short_pan :
    ∃ block, buildIso0PinBlock ['1', '2', '3', '4'] "no digits" = .ok block ∧
      block.toList.length = 16 ∧ (∀ c ∈ block.toList, isDigit 16 c = true) ∧
      decodeIso0 block.toList "no digits" = some ['1', '2', '3', '4'] ∧
      ∀ pin', (∀ c ∈ pin', isDigit 10 c = true) → 4 ≤ pin'.length → pin'.length ≤ 12 →
        buildIso0PinBlock pin' "no digits" = .ok block → pin' = ['1', '2', '3', '4'] :=
  iso0_decodes (List.all_eq_true.mp (by decide)) (by decide) (by decide) "no digits"

end AtmXfs.Pin
