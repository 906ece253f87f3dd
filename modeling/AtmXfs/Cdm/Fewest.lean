import AtmXfs.Cdm.MinNotes
import AtmXfs.Cdm.Mix

namespace AtmXfs.Cdm

open Js

/-- A choice of notes from the cassettes that can be spent from, within their counts. -/
structure Choice (t : CashUnits) where
  notes : String → ℕ
  available : ∀ u ∈ t.values, 0 < notes u.unitId →
    spendable u = true ∧ (notes u.unitId : Int) ≤ u.count

namespace Choice

variable {t : CashUnits}

def total (choice : Choice t) : ℕ :=
  (t.values.map fun u => choice.notes u.unitId * u.denomination).sum

def size (choice : Choice t) : ℕ := (t.values.map fun u => choice.notes u.unitId).sum

theorem le_notesIn (choice : Choice t) {u : CashUnit} (hu : u ∈ t.values) :
    choice.notes u.unitId ≤ notesIn u := by
  apply Cdm.le_notesIn
  intro hpos
  obtain ⟨hspend, hle⟩ := choice.available u hu hpos
  exact ⟨(usable_of_spendable hspend).1, hle⟩

end Choice

theorem totalNotes_append (mix mix' : Mix) :
    totalNotes (mix ++ mix') = totalNotes mix + totalNotes mix' := by
  simp [totalNotes]

/-- A turn on a denomination that the mix does not name yet adds its notes to the mix and takes
their worth from the remainder. -/
theorem minNotesTurn_fresh {u : CashUnit} {mix : Mix} (hd : 0 < u.denomination) (hc : 0 < u.count)
    (hkey : DenomStr.ofNumber u.denomination ∉ mix.map Prod.fst) {a : ℕ} (ha : a < 2 ^ 53) :
    totalNotes (minNotesTurn u mix (.ofInt a)).1 =
        totalNotes mix + (min u.count.toNat (a / u.denomination) : ℕ) ∧
      mixValue (minNotesTurn u mix (.ofInt a)).1 + Change.after u.denomination u.count.toNat a =
        mixValue mix + a := by
  have hafter : (Change.after u.denomination u.count.toNat a : Int) +
      (min u.count.toNat (a / u.denomination) : ℕ) * u.denomination = a := by
    exact_mod_cast Change.after_add u.denomination u.count.toNat a
  rw [minNotesTurn_eq hd hc mix ha]
  by_cases hpos : 0 < min u.count.toNat (a / u.denomination)
  · rw [if_pos hpos, setCount_fresh hkey, totalNotes_append, mixValue_append, mixValue_cons,
      denomValue_ofNumber, mixValue_nil, ← hafter]
    constructor
    · simp [totalNotes]
    · ring
  · have hnone := Nat.eq_zero_of_not_pos hpos
    rw [if_neg hpos, hnone, ← hafter, hnone]
    simp

/-- With every denomination in one cassette, the loop takes the pieces of the greedy pass. -/
theorem minNotesLoop_fresh {us : List CashUnit} (h : ∀ u ∈ us, 0 < u.denomination ∧ 0 < u.count)
    (hnodup : (us.map CashUnit.denomination).Nodup) {mix : Mix}
    (hfresh : ∀ u ∈ us, DenomStr.ofNumber u.denomination ∉ mix.map Prod.fst) {a : ℕ}
    (ha : a < 2 ^ 53) :
    totalNotes (minNotesLoop us mix (.ofInt a)).1 =
        totalNotes mix + Change.pieces (us.map pile) a ∧
      mixValue (minNotesLoop us mix (.ofInt a)).1 + Change.left (us.map pile) a =
        mixValue mix + a := by
  induction us generalizing mix a with
  | nil =>
    simp [minNotesLoop, Change.pieces, Change.left]
  | cons u us ih =>
    obtain ⟨hd, hc⟩ := h u List.mem_cons_self
    obtain ⟨hu, hus⟩ := List.nodup_cons.mp hnodup
    obtain ⟨hcount, hvalue⟩ := minNotesTurn_fresh hd hc (hfresh u List.mem_cons_self) ha
    have hleft := minNotesTurn_left hd hc mix ha
    have hrest : ∀ v ∈ us, DenomStr.ofNumber v.denomination ∉
        (minNotesTurn u mix (.ofInt a)).1.map Prod.fst := by
      intro v hv hmem
      obtain ⟨e, he, hkey⟩ := List.mem_map.mp hmem
      rcases mem_minNotesTurn he with hold | ⟨hnew, -, -⟩
      · apply hfresh v (List.mem_cons_of_mem u hv)
        exact List.mem_map.mpr ⟨e, hold, hkey⟩
      · rw [hkey, DenomStr.ofNumber.injEq] at hnew
        apply hu
        rw [← hnew]
        exact List.mem_map_of_mem hv
    simp only [minNotesLoop, List.map_cons, pile, Change.pieces, Change.left]
    split_ifs with hz
    · have hnone : Change.after u.denomination u.count.toNat a = 0 := by
        rw [hleft] at hz
        exact_mod_cast Number.ofInt_inj.mp hz
      rw [hnone] at hvalue
      rw [hnone, Change.pieces_zero, Nat.add_zero, Change.left_zero]
      exact ⟨hcount, hvalue⟩
    · have hnext := ih (fun v hv => h v (List.mem_cons_of_mem u hv)) hus hrest
        (Change.after_lt_of_lt (d := u.denomination) (n := u.count.toNat) ha)
      rw [← hleft] at hnext
      constructor
      · rw [hnext.1, hcount]
        push_cast
        ring
      · rw [hnext.2, hvalue]

/-- The mix is the greedy pass over the three piles, and it pays all that it is worth. -/
theorem calculateMinNotesMix_pieces {t : CashUnits} (ht : DefaultDenominations t) {a : ℕ}
    (ha : a < 2 ^ 53) {mix : Mix} (hmix : calculateMinNotesMix t a = .ok mix) :
    let piles := [(100000, notesOf t 100000), (50000, notesOf t 50000), (20000, notesOf t 20000)]
    Change.left piles a = 0 ∧ totalNotes mix = Change.pieces piles a ∧ mixValue mix = a := by
  intro piles
  obtain ⟨u1, u2, u3, rej, hv, h1, h2, h3, h4⟩ := ht.units
  have hmem : ∀ u ∈ t.values, spendable u = true → 0 < u.denomination := by
    intro u hu hspend
    rw [hv] at hu
    simp only [List.mem_cons, List.not_mem_nil, or_false] at hu
    have hid := (spendable_iff.mp hspend).1
    rcases hu with rfl | rfl | rfl | rfl
    · omega
    · omega
    · omega
    · exact absurd h4.1 hid
  have hunits : ∀ u ∈ spendableUnits t, 0 < u.denomination ∧ 0 < u.count := by
    intro u hu
    obtain ⟨hvalue, hspend⟩ := mem_spendableUnits.mp hu
    exact ⟨hmem u hvalue hspend, (spendable_iff.mp hspend).2.2.2⟩
  have hnodup : ((spendableUnits t).map CashUnit.denomination).Nodup := by
    rw [spendableUnits_default hv h1 h2 h3 h4]
    apply List.Nodup.sublist (List.filter_sublist.map CashUnit.denomination)
    rw [hv]
    simp [h1.2, h2.2, h3.2, h4.2]
  have hpiles := piles_default hv h1 h2 h3 h4
  have hempty : ∀ u ∈ spendableUnits t, DenomStr.ofNumber u.denomination ∉
      ([] : Mix).map Prod.fst := by simp
  obtain ⟨hcount, hvalue⟩ := minNotesLoop_fresh hunits hnodup hempty ha
  have hleft := minNotesLoop_left hunits [] ha
  rw [hpiles, Change.left_filter] at hleft
  rw [hpiles, Change.pieces_filter] at hcount
  rw [hpiles, Change.left_filter] at hvalue
  simp only [calculateMinNotesMix] at hmix
  split_ifs at hmix with hrem
  cases hmix
  have hzero : Change.left piles a = 0 := by
    rw [hleft, Number.lt_ofInt, decide_eq_true_eq, Nat.cast_pos] at hrem
    exact Nat.eq_zero_of_not_pos hrem
  refine ⟨hzero, ?_, ?_⟩
  · rw [hcount]
    simp [totalNotes, piles]
  · rw [show Change.left _ a = 0 from hzero] at hvalue
    simpa using hvalue

/-- The other choice is a number of notes of each of the three denominations. -/
theorem Choice.default_notes {t : CashUnits} (ht : DefaultDenominations t) (choice : Choice t) :
    ∃ x y z, x ≤ notesOf t 100000 ∧ y ≤ notesOf t 50000 ∧
      choice.total = x * 100000 + y * 50000 + z * 20000 ∧ choice.size = x + y + z := by
  obtain ⟨u1, u2, u3, rej, hv, h1, h2, h3, h4⟩ := ht.units
  obtain ⟨n1, n2, -⟩ := notesOf_default hv h1 h2 h3 h4
  have hmem : u1 ∈ t.values ∧ u2 ∈ t.values ∧ rej ∈ t.values := by
    rw [hv]
    simp
  have hrej : choice.notes rej.unitId = 0 := by
    have hle := choice.le_notesIn hmem.2.2
    have hnone : notesIn rej = 0 := by simp [notesIn, spendable, h4.1]
    omega
  refine ⟨choice.notes u1.unitId, choice.notes u2.unitId, choice.notes u3.unitId, ?_, ?_, ?_, ?_⟩
  · rw [n1]
    exact choice.le_notesIn hmem.1
  · rw [n2]
    exact choice.le_notesIn hmem.2.1
  · have htotal : choice.total = choice.notes u1.unitId * u1.denomination +
        (choice.notes u2.unitId * u2.denomination + (choice.notes u3.unitId * u3.denomination +
          choice.notes rej.unitId * rej.denomination)) := by
      simp [Choice.total, hv]
    rw [htotal, h1.2, h2.2, h3.2, hrej]
    omega
  · simp only [Choice.size, hv, List.map_cons, List.map_nil, List.sum_cons, List.sum_nil, hrej]
    omega

/-- On the machine's denominations no choice of the same worth uses fewer notes than a request
for the fewest, of less than `2 ^ 53`, is paid in, whatever the cassettes hold and whichever of
them are jammed. -/
theorem minNotes_fewest {s s' : CdmDeviceService} {payload : CdmDispensePayload}
    {r : CdmDispenseResult} (htable : DefaultDenominations s.cashUnits)
    (hmode : payload.mixType = .minNotes) (hmax : payload.amount.lt (.ofInt (2 ^ 53)) = true)
    (h : executeCommand s (.dispense payload) = (.ok (.dispensed r), s'))
    (choice : Choice s.cashUnits) (hsame : (choice.total : Int) = mixValue r.mix) :
    totalNotes r.mix ≤ choice.size := by
  obtain ⟨_, hcommand, hd⟩ := dispensed_cases h
  cases hcommand
  obtain ⟨hplan, -⟩ := dispense_values hd
  obtain ⟨hamount, hpos, hmix, -⟩ := planDispense_spec hplan
  obtain ⟨a, ha⟩ := Int.eq_ofNat_of_zero_le hpos.le
  rw [hamount, Number.lt_ofInt, decide_eq_true_eq, ha] at hmax
  have hchosen : calculateMinNotesMix s.cashUnits a = .ok r.mix := by
    rw [← ha, ← hmix, chooseMix, hmode]
  obtain ⟨hpaid, hcount, hvalue⟩ :=
    calculateMinNotesMix_pieces htable (by exact_mod_cast hmax) hchosen
  obtain ⟨x, y, z, hx, hy, htotal, hsize⟩ := choice.default_notes htable
  have hworth : x * (10 * 10000) + y * (5 * 10000) + z * (2 * 10000) = a := by
    rw [hvalue] at hsame
    omega
  have hle := Change.pieces_le_of_pays (u := 10000) (by decide) hpaid hx hy hworth
  rw [hcount, hsize]
  exact_mod_cast hle

/-- The first cassette is empty, the next two hold 2^120 notes each. -/
def largeCassettes : CashUnits where
  values := [⟨"CASS1", 100000, .empty, 0, 0, 0, 0⟩,
    ⟨"CASS2", 50000, .ok, 2 ^ 120, 2 ^ 120, 2 ^ 120, 0⟩,
    ⟨"CASS3", 20000, .ok, 2 ^ 120, 2 ^ 120, 2 ^ 120, 0⟩,
    ⟨"REJECT", 0, .ok, 0, 0, 300, 0⟩]
  nodup := by decide

/-- Two more notes of 50000 and five less of 20000 than the loop takes for 13 * 2^116. -/
def fewerNotes : Choice largeCassettes where
  notes := fun unitId =>
    if unitId = "CASS2" then 21599954931504881042454445293570
    else if unitId = "CASS3" then 7378697629483816 else 0
  available := by decide +kernel

/-- What the loop leaves of 13 * 2^116 after the notes of 50000 is rounded to a number that
the notes of 20000 can pay. -/
theorem minNotes_not_fewest :
    DefaultDenominations largeCassettes ∧
      ∃ r s', executeCommand (.new largeCassettes)
          (.dispense ⟨.ofInt (13 * 2 ^ 116), .minNotes, none, true⟩) = (.ok (.dispensed r), s') ∧
        (fewerNotes.total : Int) = mixValue r.mix ∧ (fewerNotes.size : Int) < totalNotes r.mix := by
  have hanswer : (executeCommand (.new largeCassettes)
      (.dispense ⟨.ofInt (13 * 2 ^ 116), .minNotes, none, true⟩)).1 = .ok (.dispensed
        ⟨[(.ofNumber 50000, 21599954931504881042454445293568),
          (.ofNumber 20000, 7378697629483821)], 13 * 2 ^ 116⟩) := by
    decide +kernel
  generalize hrun : executeCommand (.new largeCassettes)
    (.dispense ⟨.ofInt (13 * 2 ^ 116), .minNotes, none, true⟩) = run at hanswer ⊢
  obtain ⟨answer, s'⟩ := run
  cases hanswer
  exact ⟨rfl, _, s', rfl, by decide +kernel, by decide +kernel⟩

/-- Three notes of 50000 and one of 20000. -/
def threeFifties : Choice initializeCassettes where
  notes := fun unitId => if unitId = "CASS2" then 3 else if unitId = "CASS3" then 1 else 0
  available := by decide

theorem minNotes_fewest_fresh :
    ∃ r s', executeCommand (.new initializeCassettes)
        (.dispense ⟨.ofInt 170000, .minNotes, none, true⟩) = (.ok (.dispensed r), s') ∧
      (threeFifties.total : Int) = mixValue r.mix ∧ totalNotes r.mix ≤ threeFifties.size := by
  have hanswer : (executeCommand (.new initializeCassettes)
      (.dispense ⟨.ofInt 170000, .minNotes, none, true⟩)).1 = .ok (.dispensed
        ⟨[(.ofNumber 100000, 1), (.ofNumber 50000, 1), (.ofNumber 20000, 1)], 170000⟩) := by
    decide +kernel
  generalize hrun : executeCommand (.new initializeCassettes)
    (.dispense ⟨.ofInt 170000, .minNotes, none, true⟩) = run at hanswer ⊢
  obtain ⟨answer, s'⟩ := run
  cases hanswer
  have htable : DefaultDenominations (CdmDeviceService.new initializeCassettes).cashUnits := rfl
  have hsame : (threeFifties.total : Int) =
      mixValue [(.ofNumber 100000, 1), (.ofNumber 50000, 1), (.ofNumber 20000, 1)] := by decide
  exact ⟨_, s', rfl, hsame, minNotes_fewest htable rfl (by decide) hrun threeFifties hsame⟩

end AtmXfs.Cdm
