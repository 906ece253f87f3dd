import AtmXfs.Emv.Simulator

namespace AtmXfs.Emv

open Js

theorem hexToBytes_hexText (bytes : List UInt8) : hexToBytes (hexText bytes) = .ok bytes :=
  hexToBytes_bytesToHex bytes

theorem length_hexText (bytes : List UInt8) : (hexText bytes).length = 2 * bytes.length := by
  rw [hexText, utf16_bytesToHex, length_hexUnits]

/-- An upper-case hex digit is the unit of its value. -/
theorem exists_hexUnit {u : UInt16} (hu : isHexUnit u = true) : ∃ n < 16, hexUnit n = u := by
  have hu' : u = UInt16.ofNat u.toNat := by simp
  rw [hu']
  rcases isHexUnit_toNat hu with ⟨hlow, hhigh⟩ | ⟨hlow, hhigh⟩
  · exact ⟨u.toNat - 48, by omega, by interval_cases u.toNat <;> decide⟩
  · exact ⟨u.toNat - 55, by omega, by interval_cases u.toNat <;> decide⟩

theorem hexUnits_byte {h l : Nat} (hh : h < 16) (hl : l < 16) :
    hexUnits (h * 16 + l).toUInt8 = [hexUnit h, hexUnit l] := by
  have hbyte : (h * 16 + l).toUInt8.toNat = h * 16 + l := toNat_byte (by omega)
  have hhigh : (h * 16 + l) / 16 = h := by omega
  have hlow : (h * 16 + l) % 16 = l := by omega
  rw [hexUnits, hbyte, hhigh, hlow]

/-- An even number of hex digits stands for bytes. -/
theorem exists_hexText {n : Nat} {s : Text} (hlength : s.length = 2 * n)
    (hs : ∀ u ∈ s, isHexUnit u = true) : ∃ bytes, s = hexText bytes ∧ bytes.length = n := by
  induction n generalizing s with
  | zero =>
    have hnil : s = [] := List.length_eq_zero_iff.mp hlength
    exact ⟨[], by rw [hnil]; rfl, rfl⟩
  | succ n ih =>
    match s, hlength with
    | u :: v :: rest, hlength =>
      obtain ⟨h, hh, rfl⟩ := exists_hexUnit (hs u (by simp))
      obtain ⟨l, hl, rfl⟩ := exists_hexUnit (hs v (by simp))
      have hshort : rest.length = 2 * n := by
        simp only [List.length_cons] at hlength
        omega
      obtain ⟨bytes, hrest, hcount⟩ := ih hshort fun w hw => hs w (by simp [hw])
      refine ⟨(h * 16 + l).toUInt8 :: bytes, ?_, by simp [hcount]⟩
      rw [hexText, utf16_bytesToHex] at hrest ⊢
      rw [List.flatMap_cons, hexUnits_byte hh hl, ← hrest]
      rfl

theorem isHexUnit_of_digit {u : UInt16} (hu : isDigitUnit u = true) : isHexUnit u = true :=
  decide_eq_true (.inl hu)

theorem upperHex_step {n : Nat} (hn : 16 ≤ n) :
    upperHex n = upperHex (n / 16) ++ [hexUnit (n % 16)] := by
  rw [upperHex, upperHex, if_neg (by omega), if_neg (by omega),
    Nat.digits_def' (by decide) (by omega), List.reverse_cons, List.map_append]
  rfl

theorem upperHex_small {n : Nat} (hn : n < 16) : upperHex n = [hexUnit n] := by
  by_cases hzero : n = 0
  · subst hzero
    rfl
  · rw [upperHex, if_neg hzero, Nat.digits_of_lt 16 n hzero hn]
    rfl

/-- The last digit of a padded number, and the number in front of it. -/
theorem padStart_upperHex {n k : Nat} (hk : 1 ≤ k) :
    (upperHex n).padStart (k + 1) 48 =
      (upperHex (n / 16)).padStart k 48 ++ [hexUnit (n % 16)] := by
  by_cases hn : n < 16
  · have hzero : n / 16 = 0 := by omega
    have hmod : n % 16 = n := by omega
    have hpad : List.replicate k (48 : UInt16) =
        List.replicate (k - 1) 48 ++ [hexUnit 0] := by
      obtain ⟨j, rfl⟩ : ∃ j, k = j + 1 := ⟨k - 1, by omega⟩
      rw [List.replicate_succ']
      rfl
    rw [hzero, hmod, upperHex_small hn, upperHex_small (by decide : 0 < 16), Text.padStart,
      Text.padStart, List.leftpad, List.leftpad, List.length_singleton, List.length_singleton,
      Nat.add_sub_cancel, hpad]
  · rw [upperHex_step (by omega), Text.padStart, Text.padStart, List.leftpad, List.leftpad,
      List.length_append, List.length_singleton, Nat.add_sub_add_right, List.append_assoc]

/-- A counter of two bytes in hex. -/
theorem padStart_counter {n : Nat} (hn : n ≤ 65535) : (upperHex n).padStart 4 48 =
    hexText [(n / 256).toUInt8, (n % 256).toUInt8] := by
  have hlast : (upperHex (n / 16 / 16 / 16)).padStart 1 48 = [hexUnit (n / 16 / 16 / 16)] := by
    rw [upperHex_small (by omega)]
    rfl
  have hhigh : n / 256 = n / 16 / 16 / 16 * 16 + n / 16 / 16 % 16 := by omega
  have hlow : n % 256 = n / 16 % 16 * 16 + n % 16 := by omega
  rw [padStart_upperHex (by decide), padStart_upperHex (by decide), padStart_upperHex (by decide),
    hlast, hexText, utf16_bytesToHex, hhigh, hlow]
  simp only [List.flatMap_cons, List.flatMap_nil]
  rw [hexUnits_byte (by omega) (by omega), hexUnits_byte (by omega) (by omega)]
  rfl

/-- What an answer was built from: primitive fields in a template. -/
def primitives (children : List (Tag false × List UInt8)) : List TlvTree :=
  children.map fun child => .primitive child.1 child.2

theorem encodeFields_eq (children : List (Tag false × List UInt8)) :
    encodeFields (children.map fun child => (utf16 child.1.hex, hexText child.2)) =
      TlvTree.encodeAll (primitives children) := by
  induction children with
  | nil => rfl
  | cons child children ih =>
    have hhead : encodeTlvHex (utf16 child.1.hex) (hexText child.2) =
        TlvTree.encode (.primitive child.1 child.2) := by
      rw [encodeTlvHex, hexToBytes_hexText, TlvTree.ok_bind, TlvTree.encode]
    rw [encodeFields] at ih ⊢
    rw [List.map_cons, List.mapM_cons, hhead, ih]
    rfl

theorem length_encodeLength {length : Nat} {bytes : List UInt8}
    (h : encodeLength length = .ok bytes) : bytes.length ≤ 3 := by
  unfold encodeLength at h
  split_ifs at h <;> cases h <;> simp

theorem length_encodeTlv {tagHex : Text} {tagBytes value out : List UInt8}
    (htag : hexToBytes tagHex = .ok tagBytes) (h : encodeTlv tagHex value = .ok out) :
    out.length ≤ tagBytes.length + 3 + value.length := by
  rw [encodeTlv, htag] at h
  cases hlength : encodeLength value.length with
  | error e =>
    rw [hlength] at h
    cases h
  | ok lengthBytes =>
    rw [hlength] at h
    cases h
    have hthree := length_encodeLength hlength
    rw [List.length_append, List.length_append]
    omega

theorem encodeTlv_total {tagHex : Text} {tagBytes : List UInt8} (value : List UInt8)
    (htag : hexToBytes tagHex = .ok tagBytes) (h : value.length ≤ 65535) :
    ∃ out, encodeTlv tagHex value = .ok out ∧
      out.length ≤ tagBytes.length + 3 + value.length := by
  obtain ⟨lengthBytes, hlength, -⟩ := encodeLength_declared h
  have hencode : encodeTlv tagHex value = .ok (tagBytes ++ lengthBytes ++ value) := by
    rw [encodeTlv, htag, hlength]
    rfl
  exact ⟨_, hencode, length_encodeTlv htag hencode⟩

/-- Short fields are written, and take no more than the headers add. -/
theorem encodeAll_primitives {children : List (Tag false × List UInt8)}
    (hfits : ∀ child ∈ children, child.1.val.length ≤ 2 ∧ child.2.length ≤ 255) :
    TlvTree.FitsAll (primitives children) ∧
      (TlvTree.content (primitives children)).length ≤ children.length * 260 := by
  induction children with
  | nil => exact ⟨trivial, show 0 ≤ 0 * 260 from Nat.zero_le _⟩
  | cons child children ih =>
    obtain ⟨htag, hvalue⟩ := hfits child (List.mem_cons_self ..)
    obtain ⟨hrest, hlength⟩ := ih fun other hother => hfits other (List.mem_cons_of_mem _ hother)
    have hall : TlvTree.FitsAll (primitives (child :: children)) :=
      ⟨show child.2.length ≤ 65535 by omega, hrest⟩
    refine ⟨hall, ?_⟩
    obtain ⟨lenBytes, hdecl, hencode⟩ := encodeTlv_eq child.1 (hall.1 : child.2.length ≤ 65535)
    obtain ⟨parts, hparts, -⟩ := TlvTree.encodeAll_returns _ hrest
    have hpart := length_encodeTlv (hexToBytes_bytesToHex child.1.val) hencode
    have hcons : TlvTree.encodeAll (primitives (child :: children)) =
        .ok ((child.1.val ++ lenBytes ++ child.2) :: parts) := by
      rw [primitives, List.map_cons, TlvTree.encodeAll, TlvTree.encode, hencode]
      rw [primitives] at hparts
      rw [hparts]
      rfl
    rw [TlvTree.content, hparts] at hlength
    rw [TlvTree.content, hcons]
    simp only [Except.toOption, Option.getD_some, List.flatten_cons, List.length_append,
      List.length_cons] at hlength hpart ⊢
    omega

/-- The answer of a handler: its fields in a template. -/
theorem answer_of_template (tag : Tag true) (children : List (Tag false × List UInt8))
    (hfits : ∀ child ∈ children, child.1.val.length ≤ 2 ∧ child.2.length ≤ 255)
    (hcount : children.length ≤ 200) :
    ∃ part, (TlvTree.template tag (primitives children)).encode = .ok part ∧
      TlvTree.Fits (.template tag (primitives children)) ∧
      (do
        let parts ← encodeFields (children.map fun child => (utf16 child.1.hex, hexText child.2))
        return SW.OK (hexText (← encodeTemplate (utf16 tag.hex) parts))) =
        Except.ok (SW.OK (hexText part)) := by
  obtain ⟨hchildren, hlength⟩ := encodeAll_primitives hfits
  have hall : TlvTree.Fits (.template tag (primitives children)) := ⟨hchildren, by omega⟩
  obtain ⟨part, hencode, -⟩ := TlvTree.encode_reads _ hall
  obtain ⟨parts, hparts, -⟩ := TlvTree.encodeAll_returns _ hchildren
  refine ⟨part, hencode, hall, ?_⟩
  rw [TlvTree.encode_template hparts] at hencode
  rw [encodeFields_eq, hparts, TlvTree.ok_bind, encodeTemplate, hencode]
  rfl

def tag77 : Tag true := ⟨[0x77], isTag_single (by decide), rfl⟩
def tag82 : Tag false := ⟨[0x82], isTag_single (by decide), rfl⟩
def tag94 : Tag false := ⟨[0x94], isTag_single (by decide), rfl⟩
def tag5F20 : Tag false := ⟨[0x5f, 0x20], isTag_pair (by decide) (by decide), rfl⟩
def tag9F10 : Tag false := ⟨[0x9f, 0x10], isTag_pair (by decide) (by decide), rfl⟩
def tag9F26 : Tag false := ⟨[0x9f, 0x26], isTag_pair (by decide) (by decide), rfl⟩
def tag9F27 : Tag false := ⟨[0x9f, 0x27], isTag_pair (by decide) (by decide), rfl⟩
def tag9F36 : Tag false := ⟨[0x9f, 0x36], isTag_pair (by decide) (by decide), rfl⟩

/-- The data decode to a template in which the tag 9F36 holds the counter in two bytes. -/
def Carries (data : Text) (counter : Nat) : Prop :=
  ∃ bytes fuel template, hexToBytes data = .ok bytes ∧
    decodeTlv fuel bytes = some (.ok [template]) ∧ template.isConstructed = true ∧
    ∃ node ∈ template.children, node.tag = "9F36" ∧ node.value.length = 2 ∧
      beNat node.value = counter

/-- The fields of a GENERATE AC answer. -/
def acFields (atc : Nat) (arqc : List UInt8) : List (Tag false × List UInt8) :=
  [(tag9F27, [0x80]), (tag9F36, [(atc / 256).toUInt8, (atc % 256).toUInt8]), (tag9F26, arqc),
    (tag9F10, [0x01, 0x10, 0xa0, 0x40, 0x03, 0x24, 0, 0, 0, 0, 0, 0, 0, 0, 0, 0, 0, 0xff])]

theorem beNat_counter {n : Nat} (hn : n ≤ 65535) :
    beNat [(n / 256).toUInt8, (n % 256).toUInt8] = n := by
  simp only [beNat, List.foldl_cons, List.foldl_nil]
  rw [toNat_byte (by omega), toNat_byte (by omega)]
  omega

/-- The answer carries the counter it was made for and no other one. -/
theorem carries_iff {atc m : Nat} {arqc part : List UInt8} (hatc : atc ≤ 65535)
    (hfits : TlvTree.Fits (.template tag77 (primitives (acFields atc arqc))))
    (hencode : (TlvTree.template tag77 (primitives (acFields atc arqc))).encode = .ok part) :
    Carries (hexText part) m ↔ m = atc := by
  obtain ⟨parts, hparts, hreturns⟩ := TlvTree.encodeAll_returns
    [.template tag77 (primitives (acFields atc arqc))] ⟨hfits, trivial⟩
  rw [TlvTree.encodeAll, hencode] at hparts
  cases hparts
  obtain ⟨fuel, hdecode⟩ := hreturns []
  have hflat : [part].flatten = part := by simp
  rw [hflat, List.nil_append] at hdecode
  constructor
  · rintro ⟨bytes, fuel', template, hbytes, hread, -, node, hnode, htag, -, hcounter⟩
    rw [hexToBytes_hexText] at hbytes
    cases hbytes
    have hsame := decodeFrom_unique hread hdecode
    cases hsame
    have hfour : node = TlvTree.node (.primitive tag9F27 [0x80]) ∨
        node = TlvTree.node
          (.primitive tag9F36 [(atc / 256).toUInt8, (atc % 256).toUInt8]) ∨
        node.tag = tag9F26.hex ∨ node.tag = tag9F10.hex := by
      simp only [TlvTree.node, TlvNode.children, primitives, acFields, List.map_cons, List.map_nil,
        TlvTree.nodes, List.mem_cons, List.not_mem_nil, or_false] at hnode
      rcases hnode with rfl | rfl | rfl | rfl
      · exact .inl rfl
      · exact .inr (.inl rfl)
      · exact .inr (.inr (.inl rfl))
      · exact .inr (.inr (.inr rfl))
    rcases hfour with rfl | rfl | hother | hother
    · exact absurd htag (by decide)
    · rw [← hcounter]
      exact beNat_counter hatc
    · rw [hother] at htag
      exact absurd htag (by decide)
    · rw [hother] at htag
      exact absurd htag (by decide)
  · rintro rfl
    refine ⟨part, fuel, _, hexToBytes_hexText part, hdecode, rfl,
      TlvTree.node (.primitive tag9F36 [(m / 256).toUInt8, (m % 256).toUInt8]), ?_,
      (by decide : tag9F36.hex = "9F36"), rfl, beNat_counter hatc⟩
    simp [TlvTree.node, TlvNode.children, primitives, acFields, TlvTree.nodes]

def ApduResponse.accepted (r : ApduResponse) : Bool := r.sw1 = "90" ∧ r.sw2 = "00"

@[simp] theorem accepted_ok (data : Text) : (SW.OK data).accepted = true := rfl

/-- What the constructor checks. -/
structure EmvCardData.Valid (card : EmvCardData) : Prop where
  pan : ∀ u ∈ card.pan, isDigitUnit u = true
  pan_length : 12 ≤ card.pan.length ∧ card.pan.length ≤ 19
  expiryDate : ∀ u ∈ card.expiryDate, isDigitUnit u = true
  expiryDate_length : card.expiryDate.length = 4

theorem EmvSimulator.new_eq_ok {card : EmvCardData} {sim : EmvSimulator}
    (h : EmvSimulator.new card = .ok sim) : card.Valid ∧ sim = ⟨card, false, none, 0, 1⟩ := by
  rw [EmvSimulator.new] at h
  split_ifs at h with hpan hexpiry
  cases h
  exact ⟨⟨List.all_eq_true.mp hpan.1, hpan.2, List.all_eq_true.mp hexpiry.1, hexpiry.2⟩, rfl⟩

namespace EmvSimulator

variable {sim : EmvSimulator}

theorem not_isNone {aid : Option Text} (h : aid.isSome = true) : ¬ aid.isNone = true := by
  obtain ⟨text, rfl⟩ := Option.isSome_iff_exists.mp h
  simp

theorem handleGpo_selected (h : sim.selectedAid.isSome = true) :
    ∃ data, sim.handleGpo = (sim, .ok (SW.OK data)) := by
  obtain ⟨part, -, -, hanswer⟩ := answer_of_template tag77
    [(tag82, [0x5c, 0x00]), (tag94, [0x08, 0x01, 0x01, 0x00, 0x10, 0x01, 0x01, 0x01, 0x18, 0x01,
      0x01, 0x00, 0x20, 0x01, 0x01, 0x00])] (by decide) (by decide)
  have hfields : [(utf16 "82", utf16 "5C00"),
      (utf16 "94", utf16 "08010100100101011801010020010100")] =
    [(tag82, [0x5c, 0x00]), (tag94, [0x08, 0x01, 0x01, 0x00, 0x10, 0x01, 0x01, 0x01, 0x18, 0x01,
      0x01, 0x00, 0x20, 0x01, 0x01, 0x00])].map fun child : Tag false × List UInt8 =>
        (utf16 child.1.hex, hexText child.2) := by decide +kernel
  have htag : utf16 "77" = utf16 tag77.hex := by decide
  rw [← hfields, ← htag] at hanswer
  rw [handleGpo, if_neg (not_isNone h)]
  exact ⟨hexText part, congrArg (Prod.mk sim) hanswer⟩

/-- A card number in whole bytes. -/
theorem padHex_eq {pan : Text} (hdigits : ∀ u ∈ pan, isDigitUnit u = true)
    (hlength : pan.length ≤ 19) : ∃ bytes, padHex pan = hexText bytes ∧ bytes.length ≤ 10 := by
  unfold padHex
  split_ifs with heven
  · obtain ⟨bytes, hbytes, hcount⟩ := exists_hexText (s := pan) (n := pan.length / 2) (by omega)
      fun u hu => isHexUnit_of_digit (hdigits u hu)
    exact ⟨bytes, hbytes, by omega⟩
  · have hall : ∀ u ∈ pan ++ utf16 "F", isHexUnit u = true := by
      intro u hu
      rcases List.mem_append.mp hu with hpan | hlast
      · exact isHexUnit_of_digit (hdigits u hpan)
      · have hf : utf16 "F" = [70] := by decide
        rw [hf, List.mem_singleton] at hlast
        rw [hlast]
        decide
    have hone : (utf16 "F").length = 1 := by decide
    obtain ⟨bytes, hbytes, hcount⟩ := exists_hexText (n := (pan.length + 1) / 2)
      (by rw [List.length_append, hone]; omega) hall
    exact ⟨bytes, hbytes, by omega⟩

theorem expiry_eq {expiryDate : Text} (hdigits : ∀ u ∈ expiryDate, isDigitUnit u = true)
    (hlength : expiryDate.length = 4) :
    ∃ bytes, expiryDate ++ utf16 "00" = hexText bytes ∧ bytes.length = 3 := by
  have hzeros : utf16 "00" = [48, 48] := by decide
  rw [hzeros]
  apply exists_hexText
  · rw [List.length_append, hlength]
    rfl
  · intro u hu
    rcases List.mem_append.mp hu with hdate | hzero
    · exact isHexUnit_of_digit (hdigits u hdate)
    · have hu48 : u = 48 := by simpa using hzero
      rw [hu48]
      decide

theorem handleReadRecord_selected (hcard : sim.card.Valid) (record : UInt8)
    (h : sim.selectedAid.isSome = true) :
    ∃ data, sim.handleReadRecord record =
      ({ sim with currentRecord := record }, .ok (SW.OK data)) := by
  obtain ⟨pan, hpan, hpanLength⟩ := padHex_eq hcard.pan hcard.pan_length.2
  obtain ⟨expiry, hexpiry, hexpiryLength⟩ := expiry_eq hcard.expiryDate hcard.expiryDate_length
  have hname : (asciiBytes ((sim.card.cardholderName.padEnd 26 32).slice (some 0)
      (some 26))).length = 26 := by
    have hcut := slice_drop_take (sim.card.cardholderName.padEnd 26 32) 0 26
    rw [Nat.cast_zero, zero_add] at hcut
    rw [asciiBytes, List.length_map]
    show (Text.slice _ (some 0) (some ((26 : Nat) : Int))).length = 26
    rw [hcut, List.drop_zero, List.length_take, Text.padEnd, List.length_rightpad]
    omega
  obtain ⟨part, -, -, hanswer⟩ := answer_of_template tag70
    [(tag5A, pan), (tag5F24, expiry), (tag5F20,
      asciiBytes ((sim.card.cardholderName.padEnd 26 32).slice (some 0) (some 26)))] (by
        intro child hchild
        simp only [List.mem_cons, List.not_mem_nil, or_false] at hchild
        rcases hchild with rfl | rfl | rfl
        · exact ⟨(by decide : tag5A.val.length ≤ 2), show pan.length ≤ 255 by omega⟩
        · exact ⟨(by decide : tag5F24.val.length ≤ 2), show expiry.length ≤ 255 by omega⟩
        · exact ⟨(by decide : tag5F20.val.length ≤ 2), hname.le.trans (by decide)⟩) (by simp)
  have htags : utf16 "5A" = utf16 tag5A.hex ∧ utf16 "5F24" = utf16 tag5F24.hex ∧
      utf16 "5F20" = utf16 tag5F20.hex ∧ utf16 "70" = utf16 tag70.hex := by decide
  obtain ⟨h5A, h5F24, h5F20, h70⟩ := htags
  rw [handleReadRecord, if_neg (not_isNone h), hpan, hexpiry, h5A, h5F24, h5F20, h70]
  exact ⟨hexText part, congrArg (Prod.mk { sim with currentRecord := record }) hanswer⟩

theorem handleGenerateAc_selected (h : sim.selectedAid.isSome = true) (hatc : sim.atc < 65535) :
    ∃ data, sim.handleGenerateAc = ({ sim with atc := sim.atc + 1 }, .ok (SW.OK data)) ∧
      ∀ m, Carries data m ↔ m = sim.atc + 1 := by
  obtain ⟨arqc, harqc, hlength⟩ : ∃ arqc,
      deterministicArqc { sim with atc := sim.atc + 1 } = hexText arqc ∧ arqc.length = 8 :=
    ⟨_, rfl, by simp⟩
  obtain ⟨part, hencode, hfits, hanswer⟩ := answer_of_template tag77
    (acFields (sim.atc + 1) arqc) (by
      intro child hchild
      simp only [acFields, List.mem_cons, List.not_mem_nil, or_false] at hchild
      rcases hchild with rfl | rfl | rfl | rfl
      · exact ⟨(by decide : tag9F27.val.length ≤ 2), show 1 ≤ 255 by decide⟩
      · exact ⟨(by decide : tag9F36.val.length ≤ 2), show 2 ≤ 255 by decide⟩
      · exact ⟨(by decide : tag9F26.val.length ≤ 2), show arqc.length ≤ 255 by omega⟩
      · exact ⟨(by decide : tag9F10.val.length ≤ 2), show 18 ≤ 255 by decide⟩) (by simp [acFields])
  refine ⟨hexText part, ?_, fun m => carries_iff (by omega) hfits hencode⟩
  have hfields : (acFields (sim.atc + 1) arqc).map
      (fun child => (utf16 child.1.hex, hexText child.2)) =
    [(utf16 "9F27", utf16 "80"), (utf16 "9F36", (upperHex (sim.atc + 1)).padStart 4 48),
      (utf16 "9F26", hexText arqc),
      (utf16 "9F10", utf16 "0110A04003240000000000000000000000FF")] := by
    have hconst : utf16 tag9F27.hex = utf16 "9F27" ∧ hexText [0x80] = utf16 "80" ∧
        utf16 tag9F36.hex = utf16 "9F36" ∧ utf16 tag9F26.hex = utf16 "9F26" ∧
        utf16 tag9F10.hex = utf16 "9F10" ∧
        hexText [0x01, 0x10, 0xa0, 0x40, 0x03, 0x24, 0, 0, 0, 0, 0, 0, 0, 0, 0, 0, 0, 0xff] =
          utf16 "0110A04003240000000000000000000000FF" := by decide +kernel
    obtain ⟨h9F27, h80, h9F36, h9F26, h9F10, hiad⟩ := hconst
    simp only [acFields, List.map_cons, List.map_nil, h9F27, h80, h9F36, h9F26, h9F10, hiad,
      padStart_counter (show sim.atc + 1 ≤ 65535 by omega)]
  have htag : utf16 "77" = utf16 tag77.hex := by decide
  rw [hfields, ← htag] at hanswer
  rw [handleGenerateAc, if_neg (not_isNone h)]
  simp only [harqc]
  exact congrArg (Prod.mk { sim with atc := sim.atc + 1 }) hanswer

/-- The counter that follows 65535 has five hex digits. -/
theorem handleGenerateAc_overflow (h : sim.selectedAid.isSome = true) (hatc : sim.atc = 65535) :
    sim.handleGenerateAc = ({ sim with atc := 65536 }, .error (.oddHex 5)) := by
  have hcounter : (upperHex 65536).padStart 4 48 = utf16 "10000" := by
    have hdigits : upperHex 65536 = [49, 48, 48, 48, 48] := by
      rw [upperHex_step (by decide), upperHex_step (by decide), upperHex_step (by decide),
        upperHex_step (by decide), upperHex_small (by decide)]
      decide
    rw [hdigits]
    decide
  have hfirst : encodeTlvHex (utf16 "9F27") (utf16 "80") = .ok [0x9f, 0x27, 0x01, 0x80] := by
    decide +kernel
  have hsecond : encodeTlvHex (utf16 "9F36") (utf16 "10000") = .error (.oddHex 5) := by
    decide +kernel
  rw [handleGenerateAc, if_neg (not_isNone h), hatc]
  simp only [encodeFields, List.mapM_cons, hcounter, hfirst, hsecond]
  rfl

theorem hexToBytes_A5 : hexToBytes (utf16 "A5") = .ok [0xa5] := by decide +kernel

theorem hexToBytes_6F : hexToBytes (utf16 "6F") = .ok [0x6f] := by decide +kernel

variable (sim) in
theorem handleSelect_pse : ∃ data, sim.handleSelect PSE_NAME = (sim, .ok (SW.OK data)) := by
  have hname : encodeTlvHex (utf16 "84") PSE_NAME = .ok [0x84, 0x0e, 0x31, 0x50, 0x41, 0x59, 0x2e,
      0x53, 0x59, 0x53, 0x2e, 0x44, 0x44, 0x46, 0x30, 0x31] := by decide +kernel
  have hsfi : encodeTlvHex (utf16 "88") (utf16 "01") = .ok [0x88, 0x01, 0x01] := by decide +kernel
  obtain ⟨proprietary, hproprietary, hlength⟩ := encodeTlv_total [[0x88, 0x01, 0x01]].flatten
    hexToBytes_A5 (by decide)
  obtain ⟨fci, hfci, -⟩ := encodeTlv_total
    [[0x84, 0x0e, 0x31, 0x50, 0x41, 0x59, 0x2e, 0x53, 0x59, 0x53, 0x2e, 0x44, 0x44, 0x46, 0x30,
      0x31], proprietary].flatten hexToBytes_6F (by
        simp only [List.flatten_cons, List.flatten_nil, List.length_append, List.length_cons,
          List.length_nil] at hlength ⊢
        omega)
  refine ⟨hexText fci, ?_⟩
  rw [handleSelect, if_pos rfl, hname, hsfi]
  simp only [TlvTree.ok_bind, encodeTemplate, hproprietary, hfci]
  rfl

variable (sim) in
theorem handleSelect_aid {data : List UInt8} (hpse : hexText data ≠ PSE_NAME)
    (haid : isAid (hexText data) = true) : ∃ answer, sim.handleSelect (hexText data) =
      ({ sim with selectedAid := some (hexText data) }, .ok (SW.OK answer)) := by
  have hdata : data.length ≤ 16 := by
    have hlength := (of_decide_eq_true haid).2.2
    rw [length_hexText] at hlength
    omega
  obtain ⟨name, hname, hnameLength⟩ := encodeTlv_total data
    (show hexToBytes (utf16 "84") = .ok [0x84] by decide +kernel) (by omega)
  have hlabel : encodeTlvHex (utf16 "50") (hexText (asciiBytes (utf16 "VISA DEBIT"))) =
      .ok [0x50, 0x0a, 0x56, 0x49, 0x53, 0x41, 0x20, 0x44, 0x45, 0x42, 0x49, 0x54] := by
    decide +kernel
  have hpriority : encodeTlvHex (utf16 "87") (utf16 "01") = .ok [0x87, 0x01, 0x01] := by
    decide +kernel
  obtain ⟨proprietary, hproprietary, hlength⟩ := encodeTlv_total
    [[0x50, 0x0a, 0x56, 0x49, 0x53, 0x41, 0x20, 0x44, 0x45, 0x42, 0x49, 0x54],
      [0x87, 0x01, 0x01]].flatten hexToBytes_A5 (by decide)
  obtain ⟨fci, hfci, -⟩ := encodeTlv_total [name, proprietary].flatten hexToBytes_6F (by
      simp only [List.flatten_cons, List.flatten_nil, List.length_append, List.length_cons,
        List.length_nil] at hnameLength hlength ⊢
      omega)
  refine ⟨hexText fci, ?_⟩
  rw [handleSelect, if_neg hpse, if_pos haid, hlabel, hpriority, encodeTlvHex, hexToBytes_hexText]
  simp only [TlvTree.ok_bind, hname, encodeTemplate, hproprietary, hfci]
  rfl

end EmvSimulator

end AtmXfs.Emv
