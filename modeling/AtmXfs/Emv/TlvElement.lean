import AtmXfs.Emv.Tlv
import Mathlib.Data.List.TakeWhile
import Mathlib.Tactic.Ring

namespace AtmXfs.Emv

/-- Big-endian value of a byte list. -/
def beNat (bs : List UInt8) : Nat := bs.foldl (fun n b => n * 256 + b.toNat) 0

/-- A tag field: one byte, or a byte with its low five bits set, continuation bytes with the
top bit set and a last byte with the top bit clear. -/
def IsTag : List UInt8 → Prop
  | [] => False
  | b :: cs =>
    if b &&& 0x1f = 0x1f then
      ∃ more last, cs = more ++ [last] ∧ (∀ c ∈ more, c &&& 0x80 = 0x80) ∧ last &&& 0x80 ≠ 0x80
    else cs = []

/-- The number a length field stands for, in the short form or with one to four length bytes. -/
def declaredLength : List UInt8 → Option Nat
  | [] => none
  | b :: bs =>
    if b < 0x80 then if bs = [] then some b.toNat else none
    else if bs.length = (b &&& 0x7f).toNat ∧ 1 ≤ bs.length ∧ bs.length ≤ 4 then some (beNat bs)
    else none

/-- Bit 6 of the first tag byte. -/
def constructedTag : List UInt8 → Bool
  | [] => false
  | b :: _ => b &&& 0x20 == 0x20

private theorem shift_or_toNat (acc : BitVec 32) (b : UInt8) (h : acc.toNat < 2 ^ 24) :
    ((acc <<< 8) ||| b.toBitVec.setWidth 32).toNat = acc.toNat * 256 + b.toNat := by
  have hb : b.toNat < 2 ^ 8 := b.toNat_lt
  rw [BitVec.toNat_or, BitVec.toNat_shiftLeft, BitVec.toNat_setWidth]
  have hs : (acc.toNat <<< 8) % 2 ^ 32 = acc.toNat <<< 8 := by
    apply Nat.mod_eq_of_lt
    rw [Nat.shiftLeft_eq]
    omega
  have hw : b.toBitVec.toNat % 2 ^ 32 = b.toNat := Nat.mod_eq_of_lt (by
    change b.toNat < 2 ^ 32
    omega)
  rw [hs, hw, ← Nat.shiftLeft_add_eq_or_of_lt hb, Nat.shiftLeft_eq]

private theorem foldl_be (bs : List UInt8) (n : Nat) :
    bs.foldl (fun n b => n * 256 + b.toNat) n = n * 256 ^ bs.length + beNat bs := by
  unfold beNat
  induction bs generalizing n with
  | nil => simp
  | cons b bs ih =>
    rw [List.foldl_cons, ih, List.foldl_cons, ih (0 * 256 + b.toNat), List.length_cons, pow_succ]
    ring

theorem beNat_cons (b : UInt8) (bs : List UInt8) :
    beNat (b :: bs) = b.toNat * 256 ^ bs.length + beNat bs := by
  have h := foldl_be bs (0 * 256 + b.toNat)
  rw [Nat.zero_mul, Nat.zero_add] at h
  simpa [beNat] using h

/-- The length loop reads `n` bytes and appends them to the accumulator, as long as the
result fits in 32 bits. -/
theorem readLengthBytes_spec (bytes : List UInt8) (n offset : Nat) (acc l : BitVec 32)
    (stop : Nat) (h : readLengthBytes bytes n offset acc = .ok (l, stop)) :
    stop = offset + n ∧ ((bytes.drop offset).take n).length = n ∧
      ((acc.toNat + 1) * 256 ^ n ≤ 2 ^ 32 →
        l.toNat = acc.toNat * 256 ^ n + beNat ((bytes.drop offset).take n)) := by
  induction n generalizing offset acc with
  | zero =>
    simp only [readLengthBytes, Except.ok.injEq, Prod.mk.injEq] at h
    obtain ⟨rfl, rfl⟩ := h
    simp [beNat]
  | succ n ih =>
    unfold readLengthBytes at h
    cases hb : bytes[offset]? with
    | none => simp [hb] at h
    | some b =>
      simp only [hb] at h
      obtain ⟨hstop, hlen, hval⟩ := ih _ _ h
      obtain ⟨hlt, hget⟩ := List.getElem?_eq_some_iff.mp hb
      have hdrop : (bytes.drop offset).take (n + 1) = b :: (bytes.drop (offset + 1)).take n := by
        rw [List.drop_eq_getElem_cons hlt, hget, List.take_succ_cons]
      refine ⟨by omega, by rw [hdrop, List.length_cons, hlen], fun hacc => ?_⟩
      have hbyte : b.toNat < 256 := b.toNat_lt
      have hpow : 1 ≤ 256 ^ n := Nat.one_le_pow _ _ (by decide)
      rw [pow_succ, Nat.mul_comm (256 ^ n), ← Nat.mul_assoc] at hacc
      have hsmall : acc.toNat < 2 ^ 24 := by
        have hm := Nat.le_mul_of_pos_right ((acc.toNat + 1) * 256) hpow
        omega
      have hstep := shift_or_toNat acc b hsmall
      have hfit : (((acc <<< 8) ||| b.toBitVec.setWidth 32).toNat + 1) * 256 ^ n ≤ 2 ^ 32 := by
        rw [hstep]
        exact (Nat.mul_le_mul_right _ (by omega)).trans hacc
      rw [hval hfit, hstep, hdrop, beNat_cons, hlen, pow_succ]
      ring

private theorem beNat_lt (bs : List UInt8) : beNat bs < 256 ^ bs.length := by
  induction bs with
  | nil => simp [beNat]
  | cons b bs ih =>
    have hb : b.toNat + 1 ≤ 256 := b.toNat_lt
    have hm := Nat.mul_le_mul_right (256 ^ bs.length) hb
    rw [beNat_cons, List.length_cons, pow_succ]
    rw [Nat.add_mul] at hm
    omega

/-- The two forms of a length field, and what is read from each. -/
theorem readLength_cases (bytes : List UInt8) (offset : Nat) (length : Int) (valueStart : Nat)
    (h : readLength bytes offset = .ok (length, valueStart)) :
    ∃ b bs, bytes.drop offset = b :: bs ++ bytes.drop valueStart ∧
      valueStart = offset + 1 + bs.length ∧ valueStart ≤ bytes.length ∧
      ((b < 0x80 ∧ bs = [] ∧ length = b.toNat) ∨
       (¬ b < 0x80 ∧ bs.length = (b &&& 0x7f).toNat ∧ 1 ≤ bs.length ∧ bs.length ≤ 4 ∧
        ∃ l : BitVec 32, l.toNat = beNat bs ∧ length = l.toInt)) := by
  unfold readLength at h
  cases hb : bytes[offset]? with
  | none => simp [hb] at h
  | some b =>
    obtain ⟨hlt, hget⟩ := List.getElem?_eq_some_iff.mp hb
    have hdrop : bytes.drop offset = b :: bytes.drop (offset + 1) := by
      rw [List.drop_eq_getElem_cons hlt, hget]
    simp only [hb] at h
    by_cases hshort : b < 0x80
    · simp only [hshort, if_true, Except.ok.injEq, Prod.mk.injEq] at h
      obtain ⟨rfl, rfl⟩ := h
      exact ⟨b, [], by simpa using hdrop, rfl, by omega, .inl ⟨hshort, rfl, rfl⟩⟩
    · simp only [hshort, if_false] at h
      by_cases hnum : (b &&& 0x7f).toNat = 0 ∨ 4 < (b &&& 0x7f).toNat
      · rw [if_pos hnum] at h
        cases h
      · rw [if_neg hnum] at h
        cases hr : readLengthBytes bytes (b &&& 0x7f).toNat (offset + 1) 0 with
        | error e => rw [hr] at h; cases h
        | ok r =>
          obtain ⟨l, stop⟩ := r
          rw [hr] at h
          simp only [Except.ok.injEq, Prod.mk.injEq] at h
          obtain ⟨rfl, rfl⟩ := h
          obtain ⟨hstop, hlen, hval⟩ := readLengthBytes_spec _ _ _ _ _ _ hr
          have hsplit := List.take_append_drop (b &&& 0x7f).toNat (bytes.drop (offset + 1))
          have hbound := List.length_take_le' (b &&& 0x7f).toNat (bytes.drop (offset + 1))
          rw [List.length_drop] at hbound
          rw [List.drop_drop, ← hstop] at hsplit
          generalize (bytes.drop (offset + 1)).take (b &&& 0x7f).toNat = bs at *
          have hfour : (b &&& 0x7f).toNat ≤ 4 := by omega
          have hnat : l.toNat = beNat bs := by
            have hp := Nat.pow_le_pow_right (show 0 < 256 by decide) hfour
            simpa using hval (by simpa using hp)
          exact ⟨b, bs, by rw [hdrop, ← hsplit, List.cons_append], by omega, by omega,
            .inr ⟨hshort, hlen, by omega, by omega, l, hnat, rfl⟩⟩

private theorem toInt_neg_iff (l : BitVec 32) : l.toInt < 0 ↔ 2 ^ 31 ≤ l.toNat := by
  have hl := l.isLt
  rw [BitVec.toInt_eq_toNat_cond]
  split_ifs <;> omega

/-- A length that comes out non-negative is the number its field stands for. -/
theorem readLength_spec (bytes : List UInt8) (offset : Nat) (length : Int) (valueStart : Nat)
    (h : readLength bytes offset = .ok (length, valueStart)) (hlen : 0 ≤ length) :
    ∃ lenBytes, bytes.drop offset = lenBytes ++ bytes.drop valueStart ∧ lenBytes ≠ [] ∧
      valueStart = offset + lenBytes.length ∧ declaredLength lenBytes = some length.toNat := by
  obtain ⟨b, bs, hdrop, hstart, -, hform⟩ := readLength_cases _ _ _ _ h
  refine ⟨b :: bs, hdrop, by simp, by simp; omega, ?_⟩
  rcases hform with ⟨hshort, rfl, rfl⟩ | ⟨hlong, hnum, h1, h4, l, hl, rfl⟩
  · simp [declaredLength, hshort]
  · have hint : l.toInt.toNat = l.toNat := by
      rw [BitVec.toInt_eq_toNat_cond] at hlen ⊢
      split_ifs at hlen ⊢ <;> omega
    rw [declaredLength, if_neg hlong, if_pos ⟨hnum, h1, h4⟩, hint, hl]

/-- Only four length bytes with the top bit of the first set come out negative. -/
theorem readLength_neg (bytes : List UInt8) (offset : Nat) (length : Int) (valueStart : Nat)
    (h : readLength bytes offset = .ok (length, valueStart)) (hneg : length < 0) :
    ∃ b₁ b₂ b₃ b₄, 0x80 ≤ b₁ ∧
      bytes.drop offset = 0x84 :: b₁ :: b₂ :: b₃ :: b₄ :: bytes.drop valueStart := by
  obtain ⟨b, bs, hdrop, -, -, hform⟩ := readLength_cases _ _ _ _ h
  rcases hform with ⟨-, -, rfl⟩ | ⟨hlong, hnum, h1, h4, l, hl, rfl⟩
  · omega
  · have hbig := (toInt_neg_iff l).mp hneg
    rw [hl] at hbig
    have hk : bs.length = 4 := by
      by_contra hne
      have hlow := beNat_lt bs
      have hp := Nat.pow_le_pow_right (show 0 < 256 by decide) (show bs.length ≤ 3 by omega)
      omega
    have h84 : b = 0x84 := by
      have hmod : (b &&& 0x7f).toNat = b.toNat % 2 ^ 7 := by
        rw [UInt8.toNat_and]
        exact Nat.and_two_pow_sub_one_eq_mod b.toNat 7
      have hge : 128 ≤ b.toNat := Nat.le_of_not_lt hlong
      have hbyte := b.toNat_lt
      apply UInt8.toNat_inj.mp
      change b.toNat = 132
      omega
    match bs, hk with
    | [b₁, b₂, b₃, b₄], _ =>
      refine ⟨b₁, b₂, b₃, b₄, ?_, by rw [hdrop, h84]; rfl⟩
      have h₂ := b₂.toNat_lt
      have h₃ := b₃.toNat_lt
      have h₄ := b₄.toNat_lt
      simp only [beNat, List.foldl_cons, List.foldl_nil] at hbig
      change 128 ≤ b₁.toNat
      omega

/-- Behind a tag that does not run past the input, what was passed over is a tag field. -/
theorem tagEnd_spec (bytes : List UInt8) (offset : Nat) (b : UInt8)
    (hb : bytes[offset]? = some b) (hin : tagEnd bytes offset b ≤ bytes.length) :
    ∃ tagBytes, IsTag (b :: tagBytes) ∧
      bytes.drop offset = b :: tagBytes ++ bytes.drop (tagEnd bytes offset b) ∧
      tagEnd bytes offset b = offset + (b :: tagBytes).length := by
  obtain ⟨hlt, hget⟩ := List.getElem?_eq_some_iff.mp hb
  have hdrop : bytes.drop offset = b :: bytes.drop (offset + 1) := by
    rw [List.drop_eq_getElem_cons hlt, hget]
  unfold tagEnd at hin ⊢
  by_cases hmulti : b &&& 0x1f = 0x1f
  · rw [if_pos hmulti] at hin ⊢
    set p : UInt8 → Bool := fun b => b &&& 0x80 == 0x80 with hp
    set more := (bytes.drop (offset + 1)).takeWhile p with hmore
    have hsplit := List.takeWhile_append_dropWhile (p := p) (l := bytes.drop (offset + 1))
    rw [← hmore] at hsplit
    cases hrest : (bytes.drop (offset + 1)).dropWhile p with
    | nil =>
      have hlen := congrArg List.length hsplit
      rw [hrest, List.append_nil, List.length_drop] at hlen
      omega
    | cons last rest =>
      have hlast : p last = false := by
        have h := List.head_dropWhile_not p (l := bytes.drop (offset + 1)) (by simp [hrest])
        simpa [hrest] using h
      have hall : ∀ c ∈ more, c &&& 0x80 = 0x80 := by
        intro c hc
        simpa [hp] using List.mem_takeWhile_imp hc
      have hbytes : bytes.drop (offset + 1 + more.length + 1) = rest := by
        rw [hrest] at hsplit
        have h := congrArg (List.drop (more.length + 1)) hsplit
        rw [List.drop_drop] at h
        have he : offset + 1 + more.length + 1 = offset + 1 + (more.length + 1) := by omega
        rw [he, ← h]
        simp [List.drop_append]
      refine ⟨more ++ [last], ?_, ?_, by simp; omega⟩
      · rw [IsTag, if_pos hmulti]
        exact ⟨more, last, rfl, hall, by simpa [hp] using hlast⟩
      · rw [hbytes, hdrop, ← hsplit, hrest]
        simp
  · rw [if_neg hmulti]
    refine ⟨[], by rw [IsTag, if_neg hmulti], by simpa using hdrop, rfl⟩

private theorem slice_of_bounds (bytes : List UInt8) (start stop : Nat) (h : start ≤ stop)
    (hlen : stop ≤ bytes.length) :
    slice bytes start stop = (bytes.drop start).take (stop - start) := by
  have hs : min (start : Int) bytes.length = start := by omega
  have ht : min (stop : Int) bytes.length = stop := by omega
  have hn : ¬ (start : Int) < 0 := by omega
  have hm : ¬ (stop : Int) < 0 := by omega
  have hd : ((stop : Int) - start).toNat = stop - start := by omega
  simp only [slice, hn, hm, if_false, hs, ht, Int.toNat_natCast, hd]

/-- What a turn of the loop that does not throw has read. -/
theorem readElement_cases (bytes : List UInt8) (offset : Int) (el : Element)
    (h : readElement bytes offset = .ok el) :
    ∃ (o : Nat) (tagBytes : List UInt8) (valueStart : Nat), offset = o ∧ IsTag tagBytes ∧
      el.tag = bytesToHex tagBytes ∧ el.isConstructed = constructedTag tagBytes ∧
      bytes.drop o = tagBytes ++ bytes.drop (o + tagBytes.length) ∧
      readLength bytes (o + tagBytes.length) = .ok (el.length, valueStart) ∧
      el.value = slice bytes valueStart (valueStart + el.length) ∧
      el.next = valueStart + el.length ∧ el.next ≤ bytes.length := by
  unfold readElement byteAt at h
  by_cases hneg : offset < 0
  · simp [hneg] at h
  · simp only [hneg, if_false] at h
    obtain ⟨o, rfl⟩ := Int.eq_ofNat_of_zero_le (by omega : 0 ≤ offset)
    simp only [Int.toNat_natCast] at h
    cases hb : bytes[o]? with
    | none => simp [hb] at h
    | some b =>
      simp only [hb] at h
      cases hr : readLength bytes (tagEnd bytes o b) with
      | error e => simp [hr] at h
      | ok r =>
        obtain ⟨length, valueStart⟩ := r
        simp only [hr] at h
        by_cases hout : (bytes.length : Int) < valueStart + length
        · simp [hout] at h
        · simp only [hout, if_false, Except.ok.injEq] at h
          subst h
          obtain ⟨_, _, -, hstart, hin, -⟩ := readLength_cases _ _ _ _ hr
          obtain ⟨tagBytes, htag, hdrop, hend⟩ := tagEnd_spec bytes o b hb (by omega)
          have hslice : slice bytes o (tagEnd bytes o b) = b :: tagBytes := by
            rw [slice_of_bounds bytes o _ (by omega) (by omega), hdrop, hend,
              Nat.add_sub_cancel_left]
            simp
          exact ⟨o, b :: tagBytes, valueStart, rfl, htag, by rw [hslice], rfl,
            by rw [← hend]; exact hdrop, by rw [← hend]; exact hr, rfl, rfl,
            Int.not_lt.mp hout⟩

/-- With a length that is not negative, a turn of the loop passes over a tag field, a length
field and the value, one behind the other. -/
theorem readElement_spec (bytes : List UInt8) (offset : Int) (el : Element)
    (h : readElement bytes offset = .ok el) (hlen : 0 ≤ el.length) :
    ∃ tagBytes lenBytes, IsTag tagBytes ∧ lenBytes ≠ [] ∧ el.tag = bytesToHex tagBytes ∧
      el.isConstructed = constructedTag tagBytes ∧
      declaredLength lenBytes = some el.value.length ∧ el.length = el.value.length ∧
      bytes.drop offset.toNat =
        tagBytes ++ lenBytes ++ el.value ++ bytes.drop el.next.toNat ∧
      0 ≤ offset ∧ el.next = offset + tagBytes.length + lenBytes.length + el.value.length ∧
      el.next ≤ bytes.length := by
  obtain ⟨o, tagBytes, valueStart, rfl, htag, hhex, hcons, htdrop, hr, hvalue, hnext, hend⟩ :=
    readElement_cases bytes offset el h
  obtain ⟨lenBytes, hdrop, hne, hstart, hdecl⟩ := readLength_spec _ _ _ _ hr hlen
  obtain ⟨n, hn⟩ := Int.eq_ofNat_of_zero_le hlen
  rw [hn] at hvalue hnext hdecl
  have hval : el.value = (bytes.drop valueStart).take n := by
    have hs := slice_of_bounds bytes valueStart (valueStart + n) (by omega) (by omega)
    rw [Nat.add_sub_cancel_left] at hs
    rw [hvalue, ← hs]
    push_cast
    rfl
  have hvlen : el.value.length = n := by
    rw [hval, List.length_take, List.length_drop]
    omega
  have hstop : el.next.toNat = valueStart + n := by omega
  refine ⟨tagBytes, lenBytes, htag, hne, hhex, hcons, by rw [hvlen]; exact hdecl,
    by rw [hvlen, hn], ?_, by omega, by omega, hend⟩
  rw [Int.toNat_natCast, htdrop, hdrop, hval, hstop, ← List.drop_drop]
  simp only [List.append_assoc, List.take_append_drop]

/-- The element at `offset` has a length field of four length bytes whose first has the top bit
set: it declares 2^31 bytes or more. -/
def DeclaresHuge (bytes : List UInt8) (offset : Int) : Prop :=
  0 ≤ offset ∧ ∃ tagBytes b₁ b₂ b₃ b₄ rest, IsTag tagBytes ∧ 0x80 ≤ b₁ ∧
    bytes.drop offset.toNat = tagBytes ++ 0x84 :: b₁ :: b₂ :: b₃ :: b₄ :: rest

/-- No element can be read at `offset`: it is cut short, its length form is not supported or
its value runs past the end. -/
def Malformed (bytes : List UInt8) (offset : Int) : Prop :=
  ∃ e, readElement bytes offset = .error e

private theorem readLengthBytes_total (bytes : List UInt8) (n offset : Nat) (acc : BitVec 32)
    (h : offset + n ≤ bytes.length) : ∃ r, readLengthBytes bytes n offset acc = .ok r := by
  induction n generalizing offset acc with
  | zero => exact ⟨_, rfl⟩
  | succ n ih =>
    have hlt : offset < bytes.length := by omega
    simp only [readLengthBytes, List.getElem?_eq_getElem hlt]
    exact ih _ _ (by omega)

private theorem tagEnd_of_isTag (bytes : List UInt8) (o : Nat) (b : UInt8)
    (tagBytes rest : List UInt8) (ht : IsTag (b :: tagBytes))
    (h : bytes.drop o = b :: tagBytes ++ rest) :
    tagEnd bytes o b = o + (b :: tagBytes).length := by
  have htail : bytes.drop (o + 1) = tagBytes ++ rest := by
    rw [← List.drop_drop, h]
    rfl
  unfold tagEnd
  by_cases hmulti : b &&& 0x1f = 0x1f
  · rw [IsTag, if_pos hmulti] at ht
    obtain ⟨more, last, rfl, hmore, hlast⟩ := ht
    have htake : ((bytes.drop (o + 1)).takeWhile fun b => b &&& 0x80 == 0x80) = more := by
      rw [htail, List.append_assoc,
        List.takeWhile_append_of_pos (fun c hc => by simpa using hmore c hc)]
      simp [hlast]
    rw [if_pos hmulti, htake]
    simp
    omega
  · rw [IsTag, if_neg hmulti] at ht
    simp [hmulti, ht]

theorem readElement_of_huge (bytes : List UInt8) (offset : Int) (h : DeclaresHuge bytes offset) :
    ∃ el, readElement bytes offset = .ok el ∧ el.length < 0 := by
  obtain ⟨hpos, tagBytes, b₁, b₂, b₃, b₄, rest, htag, htop, hdrop⟩ := h
  obtain ⟨o, rfl⟩ := Int.eq_ofNat_of_zero_le hpos
  rw [Int.toNat_natCast] at hdrop
  cases tagBytes with
  | nil => exact htag.elim
  | cons b tagBytes =>
    have hb : byteAt bytes o = some b := by
      have h := congrArg List.head? hdrop
      rw [List.head?_drop] at h
      simpa [byteAt] using h
    have hend := tagEnd_of_isTag bytes o b tagBytes _ htag hdrop
    set s := tagEnd bytes o b with hs
    have hfield : bytes.drop s = 0x84 :: b₁ :: b₂ :: b₃ :: b₄ :: rest := by
      rw [hend, ← List.drop_drop, hdrop]
      simp
    have hfirst : bytes[s]? = some 0x84 := by
      have h := congrArg List.head? hfield
      rwa [List.head?_drop] at h
    have hbs : bytes.drop (s + 1) = b₁ :: b₂ :: b₃ :: b₄ :: rest := by
      rw [← List.drop_drop, hfield]
      rfl
    have hroom : s + 1 + 4 ≤ bytes.length := by
      have h := congrArg List.length hbs
      simp only [List.length_drop, List.length_cons] at h
      omega
    obtain ⟨⟨l, stop⟩, hr⟩ := readLengthBytes_total bytes 4 (s + 1) 0 hroom
    obtain ⟨hstop, -, hval⟩ := readLengthBytes_spec _ _ _ _ _ _ hr
    have hnat : l.toNat = beNat [b₁, b₂, b₃, b₄] := by
      have h := hval (by decide)
      rw [hbs] at h
      simpa using h
    have hneg : l.toInt < 0 := by
      rw [toInt_neg_iff, hnat]
      have h80 : 128 ≤ b₁.toNat := htop
      simp only [beNat, List.foldl_cons, List.foldl_nil]
      omega
    have hlen : readLength bytes s = .ok (l.toInt, stop) := by
      have hnum : ((0x84 : UInt8) &&& 0x7f).toNat = 4 := by decide
      have hlong : ¬ (0x84 : UInt8) < 0x80 := by decide
      simp only [readLength, hfirst, if_neg hlong, hnum, hr]
      rfl
    have hfits : ¬ (bytes.length : Int) < stop + l.toInt := by omega
    unfold readElement
    simp only [hb, Int.toNat_natCast, ← hs, hlen, hfits, if_false]
    exact ⟨_, rfl, hneg⟩

theorem huge_of_readElement (bytes : List UInt8) (offset : Int) (el : Element)
    (h : readElement bytes offset = .ok el) (hneg : el.length < 0) :
    DeclaresHuge bytes offset := by
  obtain ⟨o, tagBytes, valueStart, rfl, htag, -, -, htdrop, hr, -, -, -⟩ :=
    readElement_cases bytes offset el h
  obtain ⟨b₁, b₂, b₃, b₄, htop, hfield⟩ := readLength_neg _ _ _ _ hr hneg
  exact ⟨by omega, tagBytes, b₁, b₂, b₃, b₄, _, htag, htop, by
    rw [Int.toNat_natCast, htdrop, hfield]⟩

/-- A length field below 2^31 is read as the number it stands for. -/
theorem readLength_of_declared {bytes lenBytes rest : List UInt8} {offset n : Nat}
    (hdrop : bytes.drop offset = lenBytes ++ rest) (hdecl : declaredLength lenBytes = some n)
    (hn : n < 2 ^ 31) : readLength bytes offset = .ok ((n : Int), offset + lenBytes.length) := by
  cases lenBytes with
  | nil => cases hdecl
  | cons b bs =>
    have hfirst : bytes[offset]? = some b := by
      have h := congrArg List.head? hdrop
      rwa [List.head?_drop] at h
    rw [declaredLength] at hdecl
    simp only [readLength, hfirst]
    by_cases hshort : b < 0x80
    · rw [if_pos hshort] at hdecl ⊢
      split_ifs at hdecl with hnil
      cases hdecl
      rw [hnil]
      rfl
    · rw [if_neg hshort] at hdecl ⊢
      split_ifs at hdecl with hform
      cases hdecl
      obtain ⟨hnum, hpos, hfour⟩ := hform
      have htail : bytes.drop (offset + 1) = bs ++ rest := by
        rw [← List.drop_drop, hdrop]
        rfl
      have hroom : offset + 1 + bs.length ≤ bytes.length := by
        have h := congrArg List.length htail
        rw [List.length_drop, List.length_append] at h
        omega
      obtain ⟨⟨l, stop⟩, hr⟩ := readLengthBytes_total bytes bs.length (offset + 1) 0 hroom
      obtain ⟨hstop, -, hval⟩ := readLengthBytes_spec _ _ _ _ _ _ hr
      have hpow : 256 ^ bs.length ≤ 256 ^ 4 := Nat.pow_le_pow_right (by decide) hfour
      have hnat : l.toNat = beNat bs := by
        have h := hval (by simpa using hpow)
        rw [htail, List.take_left] at h
        simpa using h
      have hint : l.toInt = beNat bs := by
        rw [BitVec.toInt_eq_toNat_cond, if_pos (by omega), hnat]
      rw [if_neg (by omega), ← hnum, hr]
      simp only [hint, hstop, List.length_cons]
      congr 2
      omega

/-- A tag field, a length field and the value it announces are read as one element. -/
theorem readElement_of_fields {bytes tagBytes lenBytes value post : List UInt8} {o : Nat}
    (htag : IsTag tagBytes) (hdecl : declaredLength lenBytes = some value.length)
    (hshort : value.length < 2 ^ 31)
    (hdrop : bytes.drop o = tagBytes ++ lenBytes ++ value ++ post) :
    readElement bytes o = .ok
      { tag := bytesToHex tagBytes
        length := value.length
        value := value
        isConstructed := constructedTag tagBytes
        next := (o + (tagBytes ++ lenBytes ++ value).length : Nat) } := by
  cases tagBytes with
  | nil => exact htag.elim
  | cons b tagBytes =>
    have hb : byteAt bytes o = some b := by
      have h := congrArg List.head? hdrop
      rw [List.head?_drop] at h
      simpa [byteAt] using h
    have hend := tagEnd_of_isTag bytes o b tagBytes (lenBytes ++ value ++ post) htag
      (by simpa using hdrop)
    have hlenField : bytes.drop (o + (b :: tagBytes).length) = lenBytes ++ (value ++ post) := by
      rw [← List.drop_drop, hdrop]
      simp
    have hlen := readLength_of_declared hlenField hdecl hshort
    have htotal := congrArg List.length hdrop
    simp only [List.length_drop, List.length_append] at htotal
    have hposTag : 0 < (b :: tagBytes).length := by simp
    have htagSlice : slice bytes o (o + (b :: tagBytes).length : Nat) = b :: tagBytes := by
      rw [slice_of_bounds bytes o _ (by omega) (by omega), hdrop, Nat.add_sub_cancel_left,
        List.append_assoc, List.append_assoc, List.take_left]
    have hvalueField : bytes.drop (o + (b :: tagBytes).length + lenBytes.length) =
        value ++ post := by
      rw [← List.drop_drop, hlenField, List.drop_left]
    have hvalueSlice : slice bytes (o + (b :: tagBytes).length + lenBytes.length : Nat)
        ((o + (b :: tagBytes).length + lenBytes.length : Nat) + (value.length : Int)) =
          value := by
      have hs := slice_of_bounds bytes (o + (b :: tagBytes).length + lenBytes.length)
        (o + (b :: tagBytes).length + lenBytes.length + value.length) (by omega) (by omega)
      rw [Nat.add_sub_cancel_left, hvalueField, List.take_left, Nat.cast_add _ value.length] at hs
      exact hs
    have hfits : ¬ (bytes.length : Int) <
        (o + (b :: tagBytes).length + lenBytes.length : Nat) + (value.length : Int) := by omega
    unfold readElement
    simp only [hb, Int.toNat_natCast, hend, hlen, hfits, if_false, htagSlice, hvalueSlice]
    simp only [constructedTag, List.length_append]
    congr 2
    push_cast
    ring

end AtmXfs.Emv
