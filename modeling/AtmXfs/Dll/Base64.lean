import AtmXfs.Dll.Codec
import AtmXfs.Lib.Base64

namespace AtmXfs.Dll

open Js JsonText Base64
open Framing (Bytes)

theorem value_base64Digit (n : Nat) : value (base64Digit (n % 0x40)) = some (n % 0x40) := by
  have hall : ∀ k < 0x40, value (base64Digit k) = some k := by decide +kernel
  exact hall (n % 0x40) (Nat.mod_lt n (by decide))

theorem length_base64 (data : Bytes) : (base64 data).length = 4 * ((data.length + 2) / 3) := by
  fun_induction base64 data with
  | case1 => rfl
  | case2 a triple => simp
  | case3 a b triple => simp
  | case4 a b c rest triple ih =>
    simp only [List.length_cons, ih]
    omega

/-- Letters of the alphabet, and at most two pads behind them. -/
theorem base64_letters (data : Bytes) : ∃ letters pads, base64 data = letters ++ pads ∧
    (∀ c ∈ letters, (value c).isSome = true) ∧ (∀ c ∈ pads, c = pad) ∧ pads.length ≤ 2 := by
  have hletter (n : Nat) : (value (base64Digit (n % 0x40))).isSome = true := by
    rw [value_base64Digit]
    rfl
  fun_induction base64 data with
  | case1 => exact ⟨[], [], rfl, by simp, by simp, by decide⟩
  | case2 a triple =>
    refine ⟨[_, _], [pad, pad], rfl, ?_, by simp, by decide⟩
    simp [hletter]
  | case3 a b triple =>
    refine ⟨[_, _, _], [pad], rfl, ?_, by simp, by decide⟩
    simp [hletter]
  | case4 a b c rest triple ih =>
    obtain ⟨letters, pads, hsplit, hletters, hpads, hcount⟩ := ih
    refine ⟨[base64Digit (triple / 0x40000 % 0x40), base64Digit (triple / 0x1000 % 0x40),
      base64Digit (triple / 0x40 % 0x40), base64Digit (triple % 0x40)] ++ letters, pads,
      ?_, ?_, hpads, hcount⟩
    · rw [hsplit]
      rfl
    · simpa [hletter] using hletters

/-- The six-bit numbers of three bytes give the bytes back. -/
theorem bytes_of_triple {a b c triple : Nat} (ha : a < 0x100) (hb : b < 0x100) (hc : c < 0x100)
    (htriple : triple = a * 0x10000 + b * 0x100 + c) :
    triple / 0x40000 % 0x40 * 4 + triple / 0x1000 % 0x40 / 16 = a ∧
      triple / 0x1000 % 0x40 % 16 * 16 + triple / 0x40 % 0x40 / 4 = b ∧
      triple / 0x40 % 0x40 % 4 * 64 + triple % 0x40 = c := by
  refine ⟨?_, ?_, ?_⟩
  · omega
  · omega
  · omega

/-- A buffer comes back from its text. -/
theorem decode_base64 (data : Bytes) : decode (base64 data) = some data := by
  have hback (u : UInt8) {n : Nat} (hn : n = u.toNat) : n.toUInt8 = u := by
    rw [hn]
    exact UInt8.ofNat_toNat
  fun_induction base64 data with
  | case1 => rfl
  | case2 a triple =>
    have htriple : triple = a.toNat * 0x10000 + 0 * 0x100 + 0 := by
      simp only [triple]
      omega
    obtain ⟨hfirst, -, -⟩ := bytes_of_triple a.toNat_lt (by decide) (by decide) htriple
    have hzero : triple / 0x1000 % 0x40 % 16 = 0 := by
      omega
    have hread := decode_two (value_base64Digit (triple / 0x40000)) (value_base64Digit _) hzero
    rw [firstByte, hback a hfirst] at hread
    exact hread
  | case3 a b triple =>
    have htriple : triple = a.toNat * 0x10000 + b.toNat * 0x100 + 0 := by
      simp only [triple]
      omega
    obtain ⟨hfirst, hsecond, -⟩ := bytes_of_triple a.toNat_lt b.toNat_lt (by decide) htriple
    have hzero : triple / 0x40 % 0x40 % 4 = 0 := by
      omega
    have hread := decode_three (value_base64Digit (triple / 0x40000))
      (value_base64Digit (triple / 0x1000)) (value_base64Digit _) hzero
    rw [firstByte, secondByte, hback a hfirst, hback b hsecond] at hread
    exact hread
  | case4 a b c rest triple ih =>
    have htriple : triple = a.toNat * 0x10000 + b.toNat * 0x100 + c.toNat := rfl
    obtain ⟨hfirst, hsecond, hthird⟩ :=
      bytes_of_triple a.toNat_lt b.toNat_lt c.toNat_lt htriple
    rw [decode_full (value_base64Digit _) (value_base64Digit _) (value_base64Digit _)
      (value_base64Digit _) ih, firstByte, secondByte, thirdByte, hback a hfirst, hback b hsecond,
      hback c hthird]

/-- The text of a buffer: four letters for each three bytes begun, padding only at its end, and
the buffer for its decoding. -/
theorem base64_faithful (data : Bytes) :
    (base64 data).length = 4 * ((data.length + 2) / 3) ∧
      (∃ letters pads, base64 data = letters ++ pads ∧
        (∀ c ∈ letters, (value c).isSome = true) ∧ (∀ c ∈ pads, c = pad) ∧ pads.length ≤ 2) ∧
      decode (base64 data) = some data :=
  ⟨length_base64 data, base64_letters data, decode_base64 data⟩

end AtmXfs.Dll
