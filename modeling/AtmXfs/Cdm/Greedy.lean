import AtmXfs.Cdm.Cassettes
import AtmXfs.Lib.Change

namespace AtmXfs.Cdm

open Js

/-- A cassette as a pile of notes. -/
def pile (u : CashUnit) : ℕ × ℕ := (u.denomination, u.count.toNat)

theorem spendable_iff {u : CashUnit} :
    spendable u = true ↔ u.unitId ≠ "REJECT" ∧ u.status ≠ .jammed ∧ u.status ≠ .inoperative ∧
      0 < u.count := by simp [spendable]

theorem mem_spendableUnits {t : CashUnits} {u : CashUnit} :
    u ∈ spendableUnits t ↔ u ∈ t.values ∧ spendable u = true := by
  rw [spendableUnits, List.mem_insertionSort, List.mem_filter]

/-- Below `2 ^ 53` the loop takes what fits, without an error of rounding. -/
theorem takeNotes_eq {u : CashUnit} (hd : 0 < u.denomination) (hc : 0 < u.count) {a : ℕ}
    (ha : a < 2 ^ 53) :
    takeNotes u (.ofInt a) = .ofInt (min u.count.toNat (a / u.denomination) : ℕ) := by
  rw [takeNotes, Number.floor_div_ofNat ha hd, Number.min_ofInt, Nat.cast_min,
    Int.toNat_of_nonneg hc.le]

/-- What one turn of the loop does to the mix and to what is left, below `2 ^ 53`. -/
theorem minNotesTurn_eq {u : CashUnit} (hd : 0 < u.denomination) (hc : 0 < u.count) (mix : Mix)
    {a : ℕ} (ha : a < 2 ^ 53) :
    minNotesTurn u mix (.ofInt a) =
      (if 0 < min u.count.toNat (a / u.denomination) then
        setCount mix (.ofNumber u.denomination) (min u.count.toNat (a / u.denomination) : ℕ)
      else mix, .ofInt (Change.after u.denomination u.count.toNat a)) := by
  have hafter := Change.after_add u.denomination u.count.toNat a
  simp only [minNotesTurn, takeNotes_eq hd hc ha, Number.lt_ofInt, Number.toInt?_ofInt,
    Option.getD_some, decide_eq_true_eq]
  generalize min u.count.toNat (a / u.denomination) = n at hafter ⊢
  by_cases hn : 0 < n
  · have hworth : |(n : Int) * (u.denomination : Int)| ≤ 2 ^ 53 := by
      rw [abs_of_nonneg (by positivity)]
      have hle : n * u.denomination ≤ 2 ^ 53 := by omega
      exact_mod_cast hle
    have hleft : (a : Int) - (n : Int) * (u.denomination : Int) =
        Change.after u.denomination u.count.toNat a := by
      have hcast : (Change.after u.denomination u.count.toNat a : Int) + n * u.denomination = a := by
        exact_mod_cast hafter
      exact sub_eq_of_eq_add hcast.symm
    have hrest : |(a : Int) - (n : Int) * (u.denomination : Int)| ≤ 2 ^ 53 := by
      rw [hleft, Nat.abs_cast]
      have hlt := Change.after_lt_of_lt (d := u.denomination) (n := u.count.toNat) ha
      exact_mod_cast hlt.le
    rw [if_pos hn, if_pos (by exact_mod_cast hn), Number.mul_ofInt hworth, Number.sub_ofInt hrest,
      hleft]
  · have hzero : n = 0 := Nat.eq_zero_of_not_pos hn
    rw [if_neg hn, if_neg (by exact_mod_cast hn)]
    rw [hzero, Nat.zero_mul, Nat.add_zero] at hafter
    rw [hafter]

/-- What one turn of the loop leaves unpaid is what the greedy pass leaves after the pile. -/
theorem minNotesTurn_left {u : CashUnit} (hd : 0 < u.denomination) (hc : 0 < u.count) (mix : Mix)
    {a : ℕ} (ha : a < 2 ^ 53) :
    (minNotesTurn u mix (.ofInt a)).2 = .ofInt (Change.after u.denomination u.count.toNat a) := by
  rw [minNotesTurn_eq hd hc mix ha]

/-- What the loop leaves unpaid is what the greedy pass over the piles leaves. -/
theorem minNotesLoop_left {us : List CashUnit} (h : ∀ u ∈ us, 0 < u.denomination ∧ 0 < u.count)
    (mix : Mix) {a : ℕ} (ha : a < 2 ^ 53) :
    (minNotesLoop us mix (.ofInt a)).2 = .ofInt (Change.left (us.map pile) a) := by
  induction us generalizing mix a with
  | nil => rfl
  | cons u us ih =>
    obtain ⟨hd, hc⟩ := h u List.mem_cons_self
    have hturn := minNotesTurn_left hd hc mix ha
    simp only [minNotesLoop, hturn, List.map_cons, pile, Change.left]
    split_ifs with hz
    · rw [hturn, hz, Int.natCast_eq_zero.mp (Number.ofInt_inj.mp hz), Change.left_zero]
      rfl
    · exact ih (fun v hv => h v (List.mem_cons_of_mem _ hv)) _ (Change.after_lt_of_lt ha)

theorem mem_setCount {mix : Mix} {key : DenomStr} {n : Int} {e : DenomStr × Int}
    (h : e ∈ setCount mix key n) : e ∈ mix ∨ e = (key, n) := by
  unfold setCount at h
  split_ifs at h
  · obtain ⟨e', he', rfl⟩ := List.mem_map.mp h
    split_ifs
    · exact .inr rfl
    · exact .inl he'
  · rcases List.mem_append.mp h with h | h
    · exact .inl h
    · exact .inr (List.mem_singleton.mp h)

theorem mem_minNotesTurn {u : CashUnit} {mix : Mix} {a : Number} {e : DenomStr × Int}
    (h : e ∈ (minNotesTurn u mix a).1) :
    e ∈ mix ∨ (e.1 = .ofNumber u.denomination ∧ 0 < e.2 ∧ e.2 ≤ u.count) := by
  unfold minNotesTurn at h
  simp only at h
  split_ifs at h with hpos
  · obtain ⟨n, hn, hnpos, hle⟩ := Number.min_floor_of_pos hpos
    rcases mem_setCount h with he | rfl
    · exact .inl he
    · rw [show takeNotes u a = .ofInt n from hn]
      exact .inr ⟨rfl, by simpa using hnpos, by simpa using hle⟩
  · exact .inl h

/-- Every entry of the mix was taken from one of the cassettes, within its count. -/
theorem mem_minNotesLoop {us : List CashUnit} {mix : Mix} {a : Number} {e : DenomStr × Int}
    (h : e ∈ (minNotesLoop us mix a).1) :
    e ∈ mix ∨ ∃ u ∈ us, e.1 = .ofNumber u.denomination ∧ 0 < e.2 ∧ e.2 ≤ u.count := by
  induction us generalizing mix a with
  | nil => exact .inl h
  | cons u us ih =>
    simp only [minNotesLoop] at h
    have hturn : ∀ e ∈ (minNotesTurn u mix a).1,
        e ∈ mix ∨ ∃ v ∈ u :: us, e.1 = .ofNumber v.denomination ∧ 0 < e.2 ∧ e.2 ≤ v.count := by
      intro e he
      rcases mem_minNotesTurn he with he | he
      · exact .inl he
      · exact .inr ⟨u, List.mem_cons_self, he⟩
    split_ifs at h
    · exact hturn e h
    · rcases ih h with he | ⟨v, hv, he⟩
      · exact hturn e he
      · exact .inr ⟨v, List.mem_cons_of_mem _ hv, he⟩

/-- The mix is found exactly when the greedy pass pays everything. -/
theorem calculateMinNotesMix_iff {t : CashUnits}
    (h : ∀ u ∈ spendableUnits t, 0 < u.denomination) {a : ℕ} (ha : a < 2 ^ 53) :
    (∃ mix, calculateMinNotesMix t a = .ok mix) ↔
      Change.left ((spendableUnits t).map pile) a = 0 := by
  have hpiles : ∀ u ∈ spendableUnits t, 0 < u.denomination ∧ 0 < u.count :=
    fun u hu => ⟨h u hu, (spendable_iff.mp (mem_spendableUnits.mp hu).2).2.2.2⟩
  have hleft := minNotesLoop_left hpiles [] ha
  unfold calculateMinNotesMix
  simp only [hleft, Number.lt_ofInt, decide_eq_true_eq, Nat.cast_pos]
  split_ifs with hpos
  · simp only [exists_false, false_iff]
    omega
  · simp only [Except.ok.injEq, exists_eq', true_iff]
    omega

theorem mem_calculateMinNotesMix {t : CashUnits} {a : Int} {mix : Mix}
    (h : calculateMinNotesMix t a = .ok mix) {e : DenomStr × Int} (he : e ∈ mix) :
    ∃ u ∈ spendableUnits t, e.1 = .ofNumber u.denomination ∧ 0 < e.2 ∧ e.2 ≤ u.count := by
  simp only [calculateMinNotesMix] at h
  split_ifs at h
  cases h
  rcases mem_minNotesLoop he with he | he
  · simp at he
  · exact he

end AtmXfs.Cdm
