import AtmXfs.Lib.JsNumber

namespace Js

namespace Number

/-- `-x`. -/
def neg : Number → Number
  | .nan => .nan
  | .inf negative => .inf !negative
  | .fin a => .fin (-a)

/-- `x - y`. -/
def sub (x y : Number) : Number := x.add y.neg

/-- `x * y`. -/
def mul : Number → Number → Number
  | .nan, _ => .nan
  | _, .nan => .nan
  | .inf a, .inf b => .inf (a != b)
  | .inf a, .fin b => if b = 0 then .nan else .inf (a != decide (b < 0))
  | .fin a, .inf b => if a = 0 then .nan else .inf (b != decide (a < 0))
  | .fin a, .fin b => roundDouble (a * b)

/-- `x / y`; a zero below the line counts as the positive one. -/
def div : Number → Number → Number
  | .nan, _ => .nan
  | _, .nan => .nan
  | .inf _, .inf _ => .nan
  | .inf a, .fin b => .inf (a != decide (b < 0))
  | .fin _, .inf _ => .fin 0
  | .fin a, .fin b =>
    if b = 0 then if a = 0 then .nan else .inf (a < 0)
    else roundDouble (a / b)

/-- `Math.floor(x)`. -/
def floor : Number → Number
  | .fin a => ofInt ⌊a⌋
  | x => x

/-- `Math.min(x, y)`. -/
def min : Number → Number → Number
  | .nan, _ => .nan
  | _, .nan => .nan
  | x, y => if x.lt y then x else y

end Number

theorem lt_two_zpow_floorLog2 {q : ℚ} (hq : 0 < q) : q < (2 : ℚ) ^ (floorLog2 q + 1) := by
  have hnum : (q.num : ℚ) < (2 : ℚ) ^ (Nat.log2 q.num.natAbs + 1) := by
    have hpos : 0 < q.num := Rat.num_pos.mpr hq
    have habs : ((q.num.natAbs : Nat) : Int) = q.num := by omega
    exact_mod_cast (show q.num < ((2 ^ (Nat.log2 q.num.natAbs + 1) : Nat) : Int) by
      rw [← habs]
      exact_mod_cast Nat.lt_log2_self (n := q.num.natAbs))
  have hden : (2 : ℚ) ^ Nat.log2 q.den ≤ q.den := by
    exact_mod_cast Nat.log2_self_le (n := q.den) q.den_ne_zero
  have hbelow : q < (2 : ℚ) ^ ((Nat.log2 q.num.natAbs : Int) - Nat.log2 q.den + 1) := by
    calc q = q.num / q.den := (Rat.num_div_den q).symm
      _ < (2 : ℚ) ^ (Nat.log2 q.num.natAbs + 1) / (2 : ℚ) ^ Nat.log2 q.den := by
          gcongr
      _ = (2 : ℚ) ^ ((Nat.log2 q.num.natAbs : Int) - Nat.log2 q.den + 1) := by
          rw [sub_add_eq_add_sub, zpow_sub₀ (by norm_num)]
          norm_cast
  unfold floorLog2
  simp only
  split_ifs with h
  · exact hbelow
  · rw [sub_add_cancel]
    exact not_le.mp h

theorem roundHalfEven_le (q : ℚ) : (roundHalfEven q : ℚ) ≤ q + 1 / 2 := by
  have hfloor : (q.floor : ℚ) ≤ q := Rat.floor_le q
  unfold roundHalfEven
  simp only
  split_ifs with hlow hhigh heven
  · linarith
  · push_cast
    linarith
  · linarith
  · push_cast
    linarith

/-- Half a unit in the last place is less than the distance of a quotient to the next whole
number. -/
theorem half_unit_lt {a d : ℕ} (ha : 0 < a) (hmax : a < 2 ^ 53) (hd : 0 < d) :
    (2 : ℚ) ^ (max (floorLog2 ((a : ℚ) / d)) (-1022) - 52) / 2 < 1 - ((a % d : ℕ) : ℚ) / d := by
  have hd' : (0 : ℚ) < d := by exact_mod_cast hd
  have hq : 0 < (a : ℚ) / d := div_pos (by exact_mod_cast ha) hd'
  have hrest : (1 : ℚ) / d ≤ 1 - ((a % d : ℕ) : ℚ) / d := by
    rw [← div_self hd'.ne', ← sub_div, div_self hd'.ne']
    gcongr
    have hlt : a % d + 1 ≤ d := Nat.mod_lt a hd
    have hcast : ((a % d : ℕ) : ℚ) + 1 ≤ d := by exact_mod_cast hlt
    linarith
  have hhalf : (2 : ℚ) ^ (max (floorLog2 ((a : ℚ) / d)) (-1022) - 52) / 2 =
      (2 : ℚ) ^ max (floorLog2 ((a : ℚ) / d)) (-1022) / (2 : ℚ) ^ 53 := by
    rw [zpow_sub₀ (by norm_num), div_div]
    norm_num
  rw [hhalf]
  rcases le_total (-1022) (floorLog2 ((a : ℚ) / d)) with hnormal | hsmall
  · rw [max_eq_left hnormal]
    refine lt_of_lt_of_le ?_ hrest
    calc (2 : ℚ) ^ floorLog2 ((a : ℚ) / d) / (2 : ℚ) ^ 53 ≤ (a : ℚ) / d / (2 : ℚ) ^ 53 := by
          gcongr
          exact two_zpow_floorLog2_le hq
      _ < (1 : ℚ) / d := by
          rw [div_div, div_lt_div_iff₀ (by positivity) hd']
          have hcast : (a : ℚ) < 2 ^ 53 := by exact_mod_cast hmax
          nlinarith
  · rw [max_eq_right hsmall]
    have hbelow : (a : ℚ) / d < 1 / 2 := by
      calc (a : ℚ) / d < (2 : ℚ) ^ (floorLog2 ((a : ℚ) / d) + 1) := lt_two_zpow_floorLog2 hq
        _ ≤ (2 : ℚ) ^ (-1 : Int) := by
            gcongr
            · norm_num
            · omega
        _ = 1 / 2 := by norm_num
    have hmod : ((a % d : ℕ) : ℚ) / d ≤ (a : ℚ) / d := by
      gcongr
      exact Nat.mod_le a d
    have htiny : (2 : ℚ) ^ (-1022 : Int) / (2 : ℚ) ^ 53 ≤ 1 / 2 := by
      calc (2 : ℚ) ^ (-1022 : Int) / (2 : ℚ) ^ 53 ≤ (2 : ℚ) ^ (0 : Int) / (2 : ℚ) ^ 53 := by
            gcongr
            · norm_num
            · decide
        _ ≤ 1 / 2 := by norm_num
    linarith

/-- The floor of a rounded quotient of whole numbers below `2 ^ 53` is their whole quotient. -/
theorem floor_roundDouble_div {a d : ℕ} (hmax : a < 2 ^ 53) (hd : 0 < d) :
    (roundDouble ((a : ℚ) / d)).floor = .ofInt (a / d : ℕ) := by
  rcases Nat.eq_zero_or_pos a with rfl | ha
  · simp [roundDouble, Number.floor]
  have hd' : (0 : ℚ) < d := by exact_mod_cast hd
  have hq : 0 < (a : ℚ) / d := div_pos (by exact_mod_cast ha) hd'
  have hsplit : (a : ℚ) / d = (a / d : ℕ) + ((a % d : ℕ) : ℚ) / d := by
    have hnat : ((d * (a / d) + a % d : ℕ) : ℚ) = a := by rw [Nat.div_add_mod]
    push_cast at hnat
    rw [← hnat]
    field_simp
  have hle : ((a / d : ℕ) : Int) ≤ 2 ^ 53 := by
    have hself := Nat.div_le_self a d
    omega
  have hlow : (((a / d : ℕ) : Int) : ℚ) ≤ (a : ℚ) / d := by
    rw [hsplit, Int.cast_natCast]
    exact le_add_of_nonneg_right (by positivity)
  have hrounded := le_rounded hle hlow hq
  have hhalf := half_unit_lt ha hmax hd
  unfold roundDouble
  rw [if_neg hq.ne', abs_of_pos hq]
  simp only [if_neg hq.not_gt]
  generalize max (floorLog2 ((a : ℚ) / d)) (-1022) - 52 = e at hrounded hhalf ⊢
  have hunit : (0 : ℚ) < (2 : ℚ) ^ e := zpow_pos (by norm_num) e
  have hnear : (roundHalfEven ((a : ℚ) / d / (2 : ℚ) ^ e) : ℚ) * (2 : ℚ) ^ e < (a / d : ℕ) + 1 := by
    calc (roundHalfEven ((a : ℚ) / d / (2 : ℚ) ^ e) : ℚ) * (2 : ℚ) ^ e
        ≤ ((a : ℚ) / d / (2 : ℚ) ^ e + 1 / 2) * (2 : ℚ) ^ e := by
          gcongr
          exact roundHalfEven_le _
      _ = (a : ℚ) / d + (2 : ℚ) ^ e / 2 := by
          field_simp
      _ < (a / d : ℕ) + 1 := by
          rw [hsplit]
          linarith
  have hfinite : ¬(2 : ℚ) ^ 1024 ≤
      (roundHalfEven ((a : ℚ) / d / (2 : ℚ) ^ e) : ℚ) * (2 : ℚ) ^ e := by
    rw [not_le]
    calc (roundHalfEven ((a : ℚ) / d / (2 : ℚ) ^ e) : ℚ) * (2 : ℚ) ^ e < (a / d : ℕ) + 1 := hnear
      _ ≤ (2 : ℚ) ^ 53 + 1 := by
          gcongr
          exact_mod_cast hle
      _ ≤ (2 : ℚ) ^ 54 := by norm_num
      _ < (2 : ℚ) ^ 1024 := pow_lt_pow_right₀ (by norm_num) (by decide)
  rw [if_neg hfinite]
  have hfloor : ⌊(roundHalfEven ((a : ℚ) / d / (2 : ℚ) ^ e) : ℚ) * (2 : ℚ) ^ e⌋ =
      ((a / d : ℕ) : Int) := by
    rw [Int.floor_eq_iff]
    rw [Int.cast_natCast] at hrounded ⊢
    exact ⟨hrounded, hnear⟩
  rw [Number.floor, hfloor]

namespace Number

theorem add_ofInt {a b : Int} (h : |a + b| ≤ 2 ^ 53) : (ofInt a).add (ofInt b) = ofInt (a + b) := by
  rw [← roundDouble_intCast h, Int.cast_add]
  rfl

theorem sub_ofInt {a b : Int} (h : |a - b| ≤ 2 ^ 53) : (ofInt a).sub (ofInt b) = ofInt (a - b) := by
  rw [← roundDouble_intCast h, Int.cast_sub, sub_eq_add_neg]
  rfl

theorem mul_ofInt {a b : Int} (h : |a * b| ≤ 2 ^ 53) : (ofInt a).mul (ofInt b) = ofInt (a * b) := by
  rw [← roundDouble_intCast h, Int.cast_mul]
  rfl

theorem floor_div_ofNat {a d : ℕ} (hmax : a < 2 ^ 53) (hd : 0 < d) :
    ((ofInt a).div (ofInt d)).floor = ofInt (a / d : ℕ) := by
  have hne : (d : ℚ) ≠ 0 := by exact_mod_cast hd.ne'
  have hdiv : (ofInt a).div (ofInt d) = roundDouble ((a : ℚ) / d) := by
    simp only [div, ofInt, Int.cast_natCast, if_neg hne]
  rw [hdiv, floor_roundDouble_div hmax hd]

theorem min_ofInt (a b : Int) : (ofInt a).min (ofInt b) = ofInt (Min.min a b) := by
  have hmin : (ofInt a).min (ofInt b) = if (ofInt a).lt (ofInt b) then ofInt a else ofInt b := rfl
  rw [hmin, lt_ofInt]
  rcases lt_or_ge a b with h | h
  · rw [min_eq_left h.le, if_pos (decide_eq_true h)]
  · rw [min_eq_right h, if_neg (by simpa using h)]

/-- The lesser of a whole number and a floor is a whole number, if it is positive. -/
theorem min_floor_of_pos {n : Int} {x : Number} (h : (ofInt 0).lt ((ofInt n).min x.floor) = true) :
    ∃ m, (ofInt n).min x.floor = ofInt m ∧ 0 < m ∧ m ≤ n := by
  cases x with
  | nan => cases h
  | inf negative =>
    cases negative with
    | true => cases h
    | false =>
      have hmin : (ofInt n).min (floor (.inf false)) = ofInt n := rfl
      rw [hmin, lt_ofInt, decide_eq_true_eq] at h
      exact ⟨n, hmin, h, le_rfl⟩
  | fin q =>
    have hmin : (ofInt n).min (floor (.fin q)) = ofInt (Min.min n ⌊q⌋) := min_ofInt n ⌊q⌋
    rw [hmin, lt_ofInt, decide_eq_true_eq] at h
    exact ⟨_, hmin, h, min_le_left _ _⟩

/-- A number that is not below `n`. -/
def AtLeast (n : Int) (x : Number) : Prop := x = .inf false ∨ ∃ v : ℚ, x = .fin v ∧ (n : ℚ) ≤ v

theorem atLeast_ofInt {m n : Int} : AtLeast n (ofInt m) ↔ n ≤ m := by
  simp [AtLeast, ofInt]

theorem atLeast_roundDouble {q : ℚ} {n : Int} (hn : n ≤ 2 ^ 53) (h : (n : ℚ) ≤ q) (hq : 0 < q) :
    AtLeast n (roundDouble q) := roundDouble_ge hn h hq

theorem AtLeast.lt {m n : Int} {x : Number} (h : AtLeast n x) (hmn : m < n) :
    (ofInt m).lt x = true := by
  rcases h with rfl | ⟨v, rfl, hle⟩
  · rfl
  · simp only [ofInt, Number.lt, decide_eq_true_eq]
    exact lt_of_lt_of_le (by exact_mod_cast hmn) hle

theorem AtLeast.mono {m n : Int} {x : Number} (h : AtLeast n x) (hmn : m ≤ n) : AtLeast m x := by
  rcases h with rfl | ⟨v, rfl, hle⟩
  · exact Or.inl rfl
  · exact Or.inr ⟨v, rfl, le_trans (by exact_mod_cast hmn) hle⟩

theorem AtLeast.add {m n : Int} {x y : Number} (hx : AtLeast m x) (hy : AtLeast n y)
    (hmax : m + n ≤ 2 ^ 53) (hpos : 0 < m + n) : AtLeast (m + n) (x.add y) := by
  rcases hx with rfl | ⟨v, rfl, hv⟩
  · rcases hy with rfl | ⟨w, rfl, hw⟩
    · exact Or.inl rfl
    · exact Or.inl rfl
  · rcases hy with rfl | ⟨w, rfl, hw⟩
    · exact Or.inl rfl
    · have hle : ((m + n : Int) : ℚ) ≤ v + w := by
        rw [Int.cast_add]
        exact add_le_add hv hw
      have hq : (0 : ℚ) < v + w := lt_of_lt_of_le (by exact_mod_cast hpos) hle
      exact atLeast_roundDouble hmax hle hq

theorem atLeast_mul {a b n : Int} (hmax : n ≤ 2 ^ 53) (hle : n ≤ a * b) (hpos : 0 ≤ a * b) :
    AtLeast n ((ofInt a).mul (ofInt b)) := by
  rcases hpos.eq_or_lt with hzero | hpos
  · rw [mul_ofInt (by rw [← hzero]; decide)]
    exact atLeast_ofInt.mpr hle
  · have hmul : (ofInt a).mul (ofInt b) = roundDouble ((a * b : Int) : ℚ) := by
      rw [Int.cast_mul]
      rfl
    rw [hmul]
    exact atLeast_roundDouble hmax (by exact_mod_cast hle) (by exact_mod_cast hpos)

/-- A total of whole numbers as far as doubles keep it: the number itself below `2 ^ 53`, and
nothing below that from there on. -/
structure Tally (s : Int) (x : Number) : Prop where
  exact : s < 2 ^ 53 → x = ofInt s
  large : 2 ^ 53 ≤ s → AtLeast (2 ^ 53) x

theorem tally_zero : Tally 0 (ofInt 0) := ⟨fun _ => rfl, fun h => absurd h (by decide)⟩

/-- A double that is less than `2 ^ 53` tells the total. -/
theorem Tally.eq {s n : Int} (h : Tally s (ofInt n)) (hn : n < 2 ^ 53) : s = n := by
  rcases lt_or_ge s (2 ^ 53) with hs | hs
  · exact (ofInt_inj.mp (h.exact hs)).symm
  · exact absurd (atLeast_ofInt.mp (h.large hs)) (not_le.mpr hn)

theorem Tally.add_mul {s : Int} {x : Number} (h : Tally s x) (hs : 0 ≤ s) {a b : Int}
    (hab : 0 ≤ a * b) : Tally (s + a * b) (x.add ((ofInt a).mul (ofInt b))) := by
  have hproduct : a * b < 2 ^ 53 → (ofInt a).mul (ofInt b) = ofInt (a * b) :=
    fun hlt => mul_ofInt (by rw [abs_of_nonneg hab]; exact hlt.le)
  constructor
  · intro hlt
    have hsum : |s + a * b| ≤ 2 ^ 53 := by
      rw [abs_of_nonneg (by omega)]
      exact hlt.le
    rw [h.exact (by omega), hproduct (by omega), add_ofInt hsum]
  · intro hle
    rcases lt_or_ge s (2 ^ 53) with hs' | hs'
    · rw [h.exact hs']
      rcases lt_or_ge (a * b) (2 ^ 53) with hab' | hab'
      · rw [hproduct hab']
        have hq : (((2 ^ 53 : Int)) : ℚ) ≤ (s : ℚ) + ((a * b : Int) : ℚ) := by
          rw [← Int.cast_add]
          exact_mod_cast hle
        exact atLeast_roundDouble le_rfl hq (lt_of_lt_of_le (by norm_num) hq)
      · have hterm := atLeast_mul le_rfl hab' hab
        have hsum := (atLeast_ofInt.mpr hs).add hterm (by norm_num) (by norm_num)
        exact hsum.mono (by norm_num)
    · have hterm : AtLeast 0 ((ofInt a).mul (ofInt b)) := atLeast_mul (by norm_num) hab hab
      have hsum := (h.large hs').add hterm (by norm_num) (by norm_num)
      exact hsum.mono (by norm_num)

end Number

end Js
