import Mathlib.Data.Nat.Notation
import Mathlib.Tactic.Linarith

namespace Change

/-- Piles of pieces: the denomination and the number of pieces of each. -/
abbrev Supply := List (ℕ × ℕ)

/-- What the greedy pass leaves of `a` after one pile. -/
def after (d n a : ℕ) : ℕ := a - min n (a / d) * d

/-- What the greedy pass over the piles leaves unpaid. -/
def left : Supply → ℕ → ℕ
  | [], a => a
  | (d, n) :: s, a => left s (after d n a)

/-- The number of pieces that the greedy pass takes. -/
def pieces : Supply → ℕ → ℕ
  | [], _ => 0
  | (d, n) :: s, a => min n (a / d) + pieces s (after d n a)

/-- The greedy pass takes a denomination from at most one of two neighbouring piles. -/
def NoSplit : Supply → ℕ → Prop
  | (d, n) :: (d', n') :: s, a =>
    (d = d' → a / d ≤ n) ∧ NoSplit ((d', n') :: s) (after d n a)
  | _, _ => True

theorem after_add (d n a : ℕ) : after d n a + min n (a / d) * d = a := by
  have hle : min n (a / d) * d ≤ a :=
    Nat.le_trans (Nat.mul_le_mul_right d (Nat.min_le_right n _)) (Nat.div_mul_le_self a d)
  unfold after
  omega

theorem after_lt_of_lt {d n a b : ℕ} (ha : a < b) : after d n a < b := by
  have hafter := after_add d n a
  omega

@[simp] theorem after_zero (d n : ℕ) : after d n 0 = 0 := by simp [after]

@[simp] theorem after_empty (d a : ℕ) : after d 0 a = a := by simp [after]

theorem after_div (d n a : ℕ) (hd : 0 < d) : after d n a / d = a / d - min n (a / d) := by
  have h := after_add d n a
  have hdiv : (after d n a + min n (a / d) * d) / d = after d n a / d + min n (a / d) :=
    Nat.add_mul_div_right _ _ hd
  rw [h] at hdiv
  omega

@[simp] theorem left_zero (s : Supply) : left s 0 = 0 := by
  induction s with
  | nil => rfl
  | cons p s ih => simpa [left] using ih

@[simp] theorem noSplit_zero (s : Supply) : NoSplit s 0 := by
  induction s with
  | nil => trivial
  | cons p s ih =>
    cases s with
    | nil => trivial
    | cons q s =>
      refine ⟨fun _ => by simp, ?_⟩
      rw [after_zero]
      exact ih

/-- Empty piles do not matter to the greedy pass. -/
theorem left_filter (s : Supply) (a : ℕ) : left (s.filter fun p => 0 < p.2) a = left s a := by
  induction s generalizing a with
  | nil => rfl
  | cons p s ih =>
    obtain ⟨d, n⟩ := p
    rcases Nat.eq_zero_or_pos n with rfl | hn
    · simpa [left] using ih a
    · simpa [left, hn] using ih (after d n a)

@[simp] theorem pieces_zero (s : Supply) : pieces s 0 = 0 := by
  induction s with
  | nil => rfl
  | cons p s ih => simpa [pieces] using ih

theorem pieces_filter (s : Supply) (a : ℕ) :
    pieces (s.filter fun p => 0 < p.2) a = pieces s a := by
  induction s generalizing a with
  | nil => rfl
  | cons p s ih =>
    obtain ⟨d, n⟩ := p
    rcases Nat.eq_zero_or_pos n with rfl | hn
    · simpa [pieces] using ih a
    · simpa [pieces, hn] using ih (after d n a)

/-- A pile that is not used up leaves less than one of its pieces. -/
theorem after_lt {d n a : ℕ} (hd : 0 < d) (h : min n (a / d) < n) : after d n a < d := by
  have hmin : min n (a / d) = a / d := by omega
  have hadd := after_add d n a
  have hmod := Nat.mod_add_div a d
  have hlt := Nat.mod_lt a hd
  rw [hmin, Nat.mul_comm] at hadd
  omega

/-- With pieces of ten, five and two units no choice of the same worth has fewer pieces than a
greedy pass that pays everything, however many there are of each. -/
theorem pieces_le_of_pays {u n₁ n₂ n₃ a x y z : ℕ} (hu : 0 < u)
    (hpaid : left [(10 * u, n₁), (5 * u, n₂), (2 * u, n₃)] a = 0) (hx : x ≤ n₁) (hy : y ≤ n₂)
    (hsum : x * (10 * u) + y * (5 * u) + z * (2 * u) = a) :
    pieces [(10 * u, n₁), (5 * u, n₂), (2 * u, n₃)] a ≤ x + y + z := by
  simp only [left] at hpaid
  simp only [pieces, Nat.add_zero]
  have htens := after_add (10 * u) n₁ a
  have hfives := after_add (5 * u) n₂ (after (10 * u) n₁ a)
  have htwos := after_add (2 * u) n₃ (after (5 * u) n₂ (after (10 * u) n₁ a))
  have hbound := after_lt (d := 5 * u) (n := n₂) (a := after (10 * u) n₁ a) (by omega)
  have hx₀ : x ≤ min n₁ (a / (10 * u)) := by
    apply Nat.le_min.mpr
    refine ⟨hx, ?_⟩
    rw [Nat.le_div_iff_mul_le (by omega)]
    omega
  rw [hpaid, Nat.zero_add] at htwos
  generalize min n₃ (after (5 * u) n₂ (after (10 * u) n₁ a) / (2 * u)) = z₀ at *
  generalize after (5 * u) n₂ (after (10 * u) n₁ a) = rest at *
  generalize min n₂ (after (10 * u) n₁ a / (5 * u)) = y₀ at *
  generalize after (10 * u) n₁ a = rest' at *
  generalize min n₁ (a / (10 * u)) = x₀ at *
  have hworth : (10 * x + 5 * y + 2 * z) * u = (10 * x₀ + 5 * y₀ + 2 * z₀) * u := by
    linarith
  have hunits := Nat.eq_of_mul_eq_mul_right hu hworth
  -- either all fives are used, or the twos are worth less than a five
  rcases Nat.lt_or_ge y₀ n₂ with hleft | hall
  · have hsmall : z₀ * 2 < 5 := by
      have hlt := hbound hleft
      rw [← htwos] at hlt
      have hscaled : z₀ * 2 * u < 5 * u := by linarith
      exact Nat.lt_of_mul_lt_mul_right hscaled
    omega
  · omega

end Change
