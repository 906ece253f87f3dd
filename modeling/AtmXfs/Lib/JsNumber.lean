import Mathlib.Data.Rat.Floor
import Mathlib.Tactic.NormNum

namespace Js

/-- A JavaScript number; the two zeros are one value here. -/
inductive Number where
  | nan
  | inf (negative : Bool)
  | fin (value : ℚ)
  deriving DecidableEq

namespace Number

def ofInt (n : Int) : Number := .fin n

/-- The integer a number is, if it is one (`Number.isInteger`, `BigInt`). -/
def toInt? : Number → Option Int
  | .fin q => if q.den = 1 then some q.num else none
  | _ => none

/-- `x < y`; every comparison with `NaN` is false. -/
def lt : Number → Number → Bool
  | .nan, _ => false
  | _, .nan => false
  | .inf true, y => y ≠ .inf true
  | _, .inf true => false
  | .inf false, _ => false
  | .fin _, .inf false => true
  | .fin a, .fin b => a < b

/-- `x <= y`. -/
def le : Number → Number → Bool
  | .nan, _ => false
  | _, .nan => false
  | x, y => !y.lt x

theorem toInt?_eq_some {x : Number} {n : Int} : x.toInt? = some n ↔ x = ofInt n := by
  cases x with
  | nan => simp [toInt?, ofInt]
  | inf b => simp [toInt?, ofInt]
  | fin q =>
    simp only [toInt?, ofInt, fin.injEq]
    constructor
    · intro h
      split_ifs at h with hd
      rw [← Option.some.inj h]
      exact ((Rat.den_eq_one_iff q).mp hd).symm
    · rintro rfl
      simp

@[simp] theorem ofInt_inj {a b : Int} : ofInt a = ofInt b ↔ a = b := by simp [ofInt]

@[simp] theorem toInt?_ofInt (n : Int) : (ofInt n).toInt? = some n := toInt?_eq_some.mpr rfl

@[simp] theorem lt_ofInt (a b : Int) : (ofInt a).lt (ofInt b) = decide (a < b) := by
  simp [lt, ofInt]

theorem le_of_not_lt {x y : Number} (hx : x ≠ .nan) (hy : y ≠ .nan) (h : y.lt x = false) :
    x.le y = true := by
  cases x <;> cases y <;> simp_all [le]

/-- Below a number without a fraction there is room for one more. -/
theorem succ_le_of_lt {x : Number} {n : Nat} (hx : ∀ q, x = .fin q → x.toInt?.isSome = true)
    (h : (ofInt n).lt x = true) : (ofInt (n + 1 : Nat)).le x = true := by
  cases x with
  | nan => cases h
  | inf negative =>
    cases negative with
    | true => cases h
    | false => rfl
  | fin q =>
    obtain ⟨m, hm⟩ := Option.isSome_iff_exists.mp (hx q rfl)
    rw [toInt?_eq_some] at hm
    rw [hm] at h ⊢
    rw [lt_ofInt, decide_eq_true_eq] at h
    have hle : ¬ m < ((n + 1 : Nat) : Int) := by omega
    change (!(ofInt m).lt (ofInt (n + 1 : Nat))) = true
    rw [lt_ofInt, decide_eq_false hle]
    rfl

end Number

/-- The largest `k` with `2 ^ k ≤ q`, for a positive `q`. -/
def floorLog2 (q : ℚ) : Int :=
  let k : Int := (Nat.log2 q.num.natAbs : Int) - Nat.log2 q.den
  if (2 : ℚ) ^ k ≤ q then k else k - 1

/-- The nearest integer, halves to the even one. -/
def roundHalfEven (q : ℚ) : Int :=
  let n := q.floor
  if q - n < 1 / 2 then n
  else if 1 / 2 < q - n then n + 1
  else if n % 2 = 0 then n else n + 1

/-- The binary64 value nearest to `q`. -/
def roundDouble (q : ℚ) : Number :=
  if q = 0 then .fin 0
  else
    let unit : ℚ := (2 : ℚ) ^ (max (floorLog2 |q|) (-1022) - 52)
    let rounded := roundHalfEven (|q| / unit) * unit
    if (2 : ℚ) ^ 1024 ≤ rounded then .inf (q < 0)
    else .fin (if q < 0 then -rounded else rounded)

namespace Number

/-- `Number(n)` for a `bigint`. -/
def ofBigInt (n : Int) : Number := roundDouble n

/-- `x + y`. -/
def add : Number → Number → Number
  | .nan, _ => .nan
  | _, .nan => .nan
  | .inf a, .inf b => if a = b then .inf a else .nan
  | .inf a, .fin _ => .inf a
  | .fin _, .inf b => .inf b
  | .fin a, .fin b => roundDouble (a + b)

end Number

/-- The whole number with the fewest digits before its zeros that is read back as `x`. -/
def shortestDigits (x : Nat) : Nat :=
  let candidates : List Nat := (List.range (toString x).length).reverse.flatMap fun zeros =>
    let low := x / 10 ^ zeros * 10 ^ zeros
    let high := low + 10 ^ zeros
    if x - low ≤ high - x then [low, high] else [high, low]
  (candidates.find? fun c : Nat => roundDouble (c : ℚ) = .fin (x : ℚ)).getD x

/-- `String(Number(n))` for a `bigint` below `10 ^ 21`. -/
def bigIntText (n : Int) : String :=
  let x := (Number.ofBigInt n).toInt?.getD 0
  (if x < 0 then "-" else "") ++ toString (shortestDigits x.natAbs)

theorem two_zpow_floorLog2_le {q : ℚ} (hq : 0 < q) : (2 : ℚ) ^ floorLog2 q ≤ q := by
  unfold floorLog2
  simp only
  split_ifs with h
  · exact h
  · have hnum : (2 : ℚ) ^ (Nat.log2 q.num.natAbs) ≤ q.num := by
      have hpos : 0 < q.num := Rat.num_pos.mpr hq
      have hle := Nat.log2_self_le (n := q.num.natAbs) (by omega)
      have habs : ((q.num.natAbs : Nat) : Int) = q.num := by omega
      exact_mod_cast (show ((2 ^ Nat.log2 q.num.natAbs : Nat) : Int) ≤ q.num by
        rw [← habs]; exact_mod_cast hle)
    have hden : (q.den : ℚ) ≤ (2 : ℚ) ^ (Nat.log2 q.den + 1) := by
      exact_mod_cast (Nat.lt_log2_self (n := q.den)).le
    have hden0 : (0 : ℚ) < q.den := by exact_mod_cast q.den_pos
    calc (2 : ℚ) ^ ((Nat.log2 q.num.natAbs : Int) - Nat.log2 q.den - 1)
        = (2 : ℚ) ^ (Nat.log2 q.num.natAbs) / (2 : ℚ) ^ (Nat.log2 q.den + 1) := by
          rw [sub_sub, zpow_sub₀ (by norm_num)]
          norm_cast
      _ ≤ q.num / q.den := by gcongr
      _ = q := Rat.num_div_den q

theorem le_roundHalfEven {q : ℚ} {n : Int} (h : (n : ℚ) ≤ q) : n ≤ roundHalfEven q := by
  have hfloor : n ≤ q.floor := Rat.le_floor_iff.mpr h
  unfold roundHalfEven
  simp only
  split_ifs <;> omega

theorem roundHalfEven_intCast (n : Int) : roundHalfEven n = n := by
  simp [roundHalfEven]

theorem le_rounded {q : ℚ} {n : Int} (hn : n ≤ 2 ^ 53) (h : (n : ℚ) ≤ q) (hq : 0 < q) :
    (n : ℚ) ≤ roundHalfEven (q / (2 : ℚ) ^ (max (floorLog2 q) (-1022) - 52)) *
      (2 : ℚ) ^ (max (floorLog2 q) (-1022) - 52) := by
  obtain ⟨e, he⟩ : ∃ e, e = max (floorLog2 q) (-1022) - 52 := ⟨_, rfl⟩
  rw [← he]
  have hunit : (0 : ℚ) < (2 : ℚ) ^ e := zpow_pos (by norm_num) e
  rcases le_or_gt e 0 with hneg | hpos
  · obtain ⟨k, hk⟩ : ∃ k : Nat, e = -(k : Int) := ⟨(-e).toNat, by omega⟩
    have hle : ((n * 2 ^ k : Int) : ℚ) ≤ q / (2 : ℚ) ^ e := by
      rw [le_div_iff₀ hunit, hk, zpow_neg, zpow_natCast]
      push_cast
      rwa [mul_assoc, mul_inv_cancel₀ (by positivity), mul_one]
    have hround : ((n * 2 ^ k : Int) : ℚ) ≤ roundHalfEven (q / (2 : ℚ) ^ e) := by
      exact_mod_cast le_roundHalfEven hle
    calc (n : ℚ) = ((n * 2 ^ k : Int) : ℚ) * (2 : ℚ) ^ e := by
          rw [hk, zpow_neg, zpow_natCast]
          push_cast
          rw [mul_assoc, mul_inv_cancel₀ (by positivity), mul_one]
      _ ≤ _ := by gcongr
  · have hlog : e = floorLog2 q - 52 := by omega
    have hle : ((2 ^ 52 : Int) : ℚ) ≤ q / (2 : ℚ) ^ e := by
      rw [le_div_iff₀ hunit]
      calc ((2 ^ 52 : Int) : ℚ) * (2 : ℚ) ^ e = (2 : ℚ) ^ floorLog2 q := by
            rw [hlog, zpow_sub₀ (by norm_num)]
            norm_num
            ring
        _ ≤ q := two_zpow_floorLog2_le hq
    have hround : ((2 ^ 52 : Int) : ℚ) ≤ roundHalfEven (q / (2 : ℚ) ^ e) := by
      exact_mod_cast le_roundHalfEven hle
    calc (n : ℚ) ≤ ((2 ^ 52 : Int) : ℚ) * (2 : ℚ) ^ (1 : Int) := by
          have : (n : ℚ) ≤ (2 ^ 53 : Int) := by exact_mod_cast hn
          norm_num at this ⊢
          exact this
      _ ≤ ((2 ^ 52 : Int) : ℚ) * (2 : ℚ) ^ e := by
          gcongr
          · norm_num
          · omega
      _ ≤ _ := by gcongr

theorem rounded_intCast {n : Int} (h0 : 0 < n) (hn : n ≤ 2 ^ 53) :
    roundHalfEven (n / (2 : ℚ) ^ (max (floorLog2 n) (-1022) - 52)) *
      (2 : ℚ) ^ (max (floorLog2 n) (-1022) - 52) = n := by
  have hlog : (2 : ℚ) ^ floorLog2 n ≤ n := two_zpow_floorLog2_le (by exact_mod_cast h0)
  have hmax : (n : ℚ) ≤ (2 : ℚ) ^ (53 : Int) := by
    have : (n : ℚ) ≤ (2 ^ 53 : Int) := by exact_mod_cast hn
    norm_num at this ⊢
    exact this
  have hle : floorLog2 n ≤ 53 := (zpow_le_zpow_iff_right₀ (by norm_num : (1 : ℚ) < 2)).mp
    (hlog.trans hmax)
  obtain ⟨e, he⟩ : ∃ e, e = max (floorLog2 (n : ℚ)) (-1022) - 52 := ⟨_, rfl⟩
  rw [← he]
  have hunit : (2 : ℚ) ^ e ≠ 0 := zpow_ne_zero e (by norm_num)
  obtain ⟨m, hm⟩ : ∃ m : Int, (n : ℚ) / (2 : ℚ) ^ e = m := by
    rcases le_or_gt e 0 with hneg | hpos
    · obtain ⟨k, hk⟩ : ∃ k : Nat, e = -(k : Int) := ⟨(-e).toNat, by omega⟩
      refine ⟨n * 2 ^ k, ?_⟩
      rw [hk, zpow_neg, zpow_natCast, div_inv_eq_mul]
      push_cast
      rfl
    · have hfull : floorLog2 (n : ℚ) = 53 := by omega
      have hn' : (n : ℚ) = (2 : ℚ) ^ (53 : Int) := le_antisymm hmax (hfull ▸ hlog)
      refine ⟨2 ^ 52, ?_⟩
      rw [hn', he, hfull]
      norm_num
  rw [hm, roundHalfEven_intCast, ← hm, div_mul_cancel₀ _ hunit]

/-- Whole numbers up to `2 ^ 53` are binary64 values. -/
theorem roundDouble_intCast {n : Int} (h : |n| ≤ 2 ^ 53) : roundDouble n = .ofInt n := by
  rcases eq_or_ne n 0 with rfl | hne
  · rfl
  · have hpos : 0 < |n| := abs_pos.mpr hne
    have hrounded := rounded_intCast hpos h
    have hsmall : ¬ (2 : ℚ) ^ 1024 ≤ (|n| : Int) := by
      rw [not_le]
      calc ((|n| : Int) : ℚ) ≤ (2 : ℚ) ^ 53 := by exact_mod_cast h
        _ < (2 : ℚ) ^ 1024 := pow_lt_pow_right₀ (by norm_num) (by decide)
    rw [Int.cast_abs] at hrounded hsmall
    unfold roundDouble
    rw [if_neg (by exact_mod_cast hne)]
    simp only [hrounded, if_neg hsmall]
    split_ifs with hneg
    · rw [abs_of_neg hneg, neg_neg]
      rfl
    · rw [abs_of_nonneg (not_lt.mp hneg)]
      rfl

/-- Rounding does not carry a number below a whole number that it is not below. -/
theorem roundDouble_ge {q : ℚ} {n : Int} (hn : n ≤ 2 ^ 53) (h : (n : ℚ) ≤ q) (hq : 0 < q) :
    roundDouble q = .inf false ∨ ∃ v : ℚ, roundDouble q = .fin v ∧ (n : ℚ) ≤ v := by
  have hle := le_rounded hn h hq
  unfold roundDouble
  rw [if_neg hq.ne', abs_of_pos hq]
  simp only [if_neg hq.not_gt]
  split_ifs
  · rw [decide_eq_false hq.not_gt]
    exact Or.inl rfl
  · exact Or.inr ⟨_, rfl, hle⟩

theorem lt_roundDouble {q : ℚ} {m n : Int} (hmn : m < n) (hn : n ≤ 2 ^ 53) (h : (n : ℚ) ≤ q)
    (hq : 0 < q) : (Number.ofInt m).lt (roundDouble q) = true := by
  rcases roundDouble_ge hn h hq with hinf | ⟨v, hv, hle⟩
  · rw [hinf]
    rfl
  · rw [hv]
    simp only [Number.ofInt, Number.lt, decide_eq_true_eq]
    exact lt_of_lt_of_le (by exact_mod_cast hmn) hle

def isSpace (c : Char) : Bool :=
  c.val ∈ [0x9, 0xa, 0xb, 0xc, 0xd, 0x20, 0xa0, 0x1680, 0x2028, 0x2029, 0x202f, 0x205f, 0x3000,
    0xfeff] ∨ (0x2000 ≤ c.val ∧ c.val ≤ 0x200a)

def trim (cs : List Char) : List Char :=
  ((cs.dropWhile isSpace).reverse.dropWhile isSpace).reverse

def digitValue (c : Char) : Option Nat :=
  if '0' ≤ c ∧ c ≤ '9' then some (c.toNat - '0'.toNat)
  else if 'a' ≤ c ∧ c ≤ 'z' then some (c.toNat - 'a'.toNat + 10)
  else if 'A' ≤ c ∧ c ≤ 'Z' then some (c.toNat - 'A'.toNat + 10)
  else none

def isDigit (radix : Nat) (c : Char) : Bool := (digitValue c).any (· < radix)

def digitsValue (radix : Nat) (cs : List Char) : Nat :=
  cs.foldl (fun acc c => acc * radix + (digitValue c).getD 0) 0

/-- A non-empty run of digits of the given radix and nothing else. -/
def readRadix (radix : Nat) (cs : List Char) : Number :=
  if cs ≠ [] ∧ cs.all (isDigit radix) then roundDouble (digitsValue radix cs) else .nan

/-- The exponent part of a decimal literal: nothing, or `e`, an optional sign and digits. -/
def readExponent : List Char → Option Int
  | [] => some 0
  | e :: cs =>
    let digits := match cs with
      | '+' :: ds => ds
      | '-' :: ds => ds
      | ds => ds
    if (e = 'e' ∨ e = 'E') ∧ digits ≠ [] ∧ digits.all (isDigit 10) then
      some (if cs.head? = some '-' then -(digitsValue 10 digits : Int) else digitsValue 10 digits)
    else none

/-- An unsigned decimal literal: digits, a fraction, an exponent. -/
def readUnsigned (cs : List Char) : Option ℚ :=
  let whole := cs.takeWhile (isDigit 10)
  let rest := cs.dropWhile (isDigit 10)
  let (fraction, rest) := match rest with
    | '.' :: ds => (ds.takeWhile (isDigit 10), ds.dropWhile (isDigit 10))
    | ds => ([], ds)
  if whole = [] ∧ fraction = [] then none
  else (readExponent rest).map fun e : Int =>
    (digitsValue 10 (whole ++ fraction) : ℚ) * (10 : ℚ) ^ (e - (fraction.length : Int))

def readDecimal (negative : Bool) (cs : List Char) : Number :=
  if cs = "Infinity".toList then .inf negative
  else match readUnsigned cs with
    | none => .nan
    | some q => roundDouble (if negative then -q else q)

/-- `Number(text)`. -/
def number (text : String) : Number :=
  match trim text.toList with
  | [] => .fin 0
  | '0' :: 'x' :: ds => readRadix 16 ds
  | '0' :: 'X' :: ds => readRadix 16 ds
  | '0' :: 'o' :: ds => readRadix 8 ds
  | '0' :: 'O' :: ds => readRadix 8 ds
  | '0' :: 'b' :: ds => readRadix 2 ds
  | '0' :: 'B' :: ds => readRadix 2 ds
  | '+' :: cs => readDecimal false cs
  | '-' :: cs => readDecimal true cs
  | cs => readDecimal false cs

/-- The array index a property name is, if it is one. -/
def arrayIndex? (name : String) : Option Nat :=
  let n := digitsValue 10 name.toList
  if name.toList.all (isDigit 10) ∧ toString n = name ∧ n < 2 ^ 32 - 1 then some n else none

end Js
