import AtmXfs.Cdm.Mix

namespace AtmXfs.Cdm

open Js

/-- Notes may be paid out of this cassette. -/
def Usable (u : CashUnit) : Prop :=
  u.unitId ≠ "REJECT" ∧ u.status ≠ .jammed ∧ u.status ≠ .inoperative

/-- Some choice of notes from the usable cassettes, within their counts, totals the amount. -/
def Payable (t : CashUnits) (amount : ℕ) : Prop :=
  ∃ notes : String → ℕ,
    (∀ u ∈ t.values, 0 < notes u.unitId → Usable u ∧ (notes u.unitId : Int) ≤ u.count) ∧
    (t.values.map fun u => notes u.unitId * u.denomination).sum = amount

/-- The notes of one denomination in the cassettes that can be spent. -/
def notesOf (t : CashUnits) (denomination : ℕ) : ℕ :=
  ((t.values.filter fun u => spendable u ∧ u.denomination = denomination).map
    fun u => u.count.toNat).sum

/-- With as many 100k notes as fit, and then as many 50k notes as fit, the number of the latter
is even; or giving one 50k note up leaves more than the 20k notes can pay. -/
def FiftiesFit (t : CashUnits) (amount : ℕ) : Prop :=
  let rest := amount - min (notesOf t 100000) (amount / 100000) * 100000
  let fifties := min (notesOf t 50000) (rest / 50000)
  fifties % 2 = 0 ∨ notesOf t 20000 < (rest - fifties * 50000 + 50000) / 20000

instance (t : CashUnits) (amount : ℕ) : Decidable (FiftiesFit t amount) := by
  unfold FiftiesFit
  infer_instance

/-- The four cassettes of the machine, in their order, none of them inoperative or overfull. -/
structure DefaultTable (t : CashUnits) : Prop where
  shapes : t.values.map shape = initializeCassettes.values.map shape
  working : ∀ u ∈ t.values, u.status ≠ .inoperative
  fitting : Fitting t

theorem Serviced.working {u u' : CashUnit} (h : Serviced u u') (hu : u.status ≠ .inoperative) :
    u'.status ≠ .inoperative := by
  have hcount (count minimum : Int) : statusOfCount count minimum ≠ .inoperative := by
    unfold statusOfCount
    split_ifs <;> simp
  cases h with
  | replenished n => exact hcount _ _
  | jammed => simp
  | cleared => exact hcount _ _
  | rejected n => exact hu

theorem step_working {s s' : CdmDeviceService} {op : CdmOp} (h : step s op = some s')
    (hs : ∀ u ∈ s.cashUnits.values, u.status ≠ .inoperative) :
    ∀ u ∈ s'.cashUnits.values, u.status ≠ .inoperative := by
  rcases step_units h with h | ⟨payload, r, -, hd⟩ | ⟨u, hu, u', hserv, hset⟩
  · rw [h]
    exact hs
  · cases r with
    | error e =>
      rcases dispense_cases hd with ⟨_, -, -, rfl⟩ | ⟨_, _, _, -, -, hr, -⟩
      · exact hs
      · cases hr
    | ok r =>
      rw [(dispense_values hd).2]
      intro v hv
      obtain ⟨u, hu, rfl⟩ := List.mem_map.mp hv
      rcases foldl_drawNotes_status u (drawnFrom s.cashUnits (objectEntries r.mix) u.unitId) with
        h | h | h <;> rw [h]
      · simp
      · simp
      · exact hs u hu
  · rw [hset]
    intro v hv
    rcases CashUnits.mem_set hu (unitId_of_shape hserv.shape) hv with rfl | ⟨hv, -⟩
    · exact hserv.working (hs u hu)
    · exact hs v hv

/-- The default table keeps its cassettes through every run. -/
theorem defaultTable_of_reaches {s : CdmDeviceService}
    (h : Runs.Reaches step Runs.free (.new initializeCassettes) s) : DefaultTable s.cashUnits := by
  have hinit : DefaultTable (CdmDeviceService.new initializeCassettes).cashUnits :=
    ⟨rfl, by decide, by unfold Fitting; decide⟩
  apply Runs.Reaches.invariant (P := fun s => DefaultTable s.cashUnits) _ hinit h
  intro s op s' hs _ hstep
  exact ⟨(step_shape hstep).trans hs.shapes, step_working hstep hs.working,
    step_fitting hs.fitting hstep⟩

/-- The cassettes and denominations of the machine, whatever the counts and statuses. -/
def DefaultDenominations (t : CashUnits) : Prop :=
  t.values.map (fun u => (u.unitId, u.denomination)) =
    initializeCassettes.values.map fun u => (u.unitId, u.denomination)

/-- The four cassettes by name. -/
theorem DefaultDenominations.units {t : CashUnits} (h : DefaultDenominations t) :
    ∃ u1 u2 u3 rej, t.values = [u1, u2, u3, rej] ∧
      (u1.unitId = "CASS1" ∧ u1.denomination = 100000) ∧
      (u2.unitId = "CASS2" ∧ u2.denomination = 50000) ∧
      (u3.unitId = "CASS3" ∧ u3.denomination = 20000) ∧
      (rej.unitId = "REJECT" ∧ rej.denomination = 0) := by
  unfold DefaultDenominations at h
  match hv : t.values with
  | [u1, u2, u3, rej] =>
    rw [hv] at h
    simp only [initializeCassettes, List.map_cons, List.map_nil, List.cons.injEq,
      Prod.mk.injEq, and_true] at h
    exact ⟨u1, u2, u3, rej, rfl, h.1, h.2.1, h.2.2.1, h.2.2.2⟩
  | [] | [_] | [_, _] | [_, _, _] | _ :: _ :: _ :: _ :: _ :: _ =>
    rw [hv] at h
    simp [initializeCassettes] at h

theorem DefaultTable.denominations {t : CashUnits} (h : DefaultTable t) :
    DefaultDenominations t := by
  have hnames := congrArg (List.map fun e => (e.1, e.2.1)) h.shapes
  simp only [List.map_map] at hnames
  exact hnames

/-- A cassette that pays holds at most 2500 notes. -/
theorem DefaultTable.count_le {t : CashUnits} (h : DefaultTable t) {u : CashUnit}
    (hu : u ∈ t.values) (hid : u.unitId ≠ "REJECT") : u.count ≤ 2500 := by
  have hshape : shape u ∈ initializeCassettes.values.map shape := by
    rw [← h.shapes]
    exact List.mem_map_of_mem hu
  obtain ⟨v, hv, hsame⟩ := List.mem_map.mp hshape
  have hdefault : ∀ v ∈ initializeCassettes.values, v.unitId ≠ "REJECT" → v.maximum = 2500 := by
    decide
  have hroom : u.maximum = 2500 := by
    rw [← maximum_of_shape hsame]
    exact hdefault v hv (by rw [unitId_of_shape hsame]; exact hid)
  have hfit := h.fitting u hu hid
  omega

theorem DefaultTable.units {t : CashUnits} (h : DefaultTable t) :
    ∃ u1 u2 u3 rej, t.values = [u1, u2, u3, rej] ∧
      (u1.unitId = "CASS1" ∧ u1.denomination = 100000) ∧
      (u2.unitId = "CASS2" ∧ u2.denomination = 50000) ∧
      (u3.unitId = "CASS3" ∧ u3.denomination = 20000) ∧
      (rej.unitId = "REJECT" ∧ rej.denomination = 0) := h.denominations.units

/-- What a single cassette adds to the notes of its denomination. -/
def notesIn (u : CashUnit) : ℕ := if spendable u then u.count.toNat else 0

theorem usable_of_spendable {u : CashUnit} (h : spendable u = true) :
    Usable u ∧ (u.count.toNat : Int) ≤ u.count := by
  obtain ⟨hid, hjam, hin, hc⟩ := spendable_iff.mp h
  exact ⟨⟨hid, hjam, hin⟩, (Int.toNat_of_nonneg hc.le).le⟩

theorem le_notesIn {u : CashUnit} {n : ℕ} (h : 0 < n → Usable u ∧ (n : Int) ≤ u.count) :
    n ≤ notesIn u := by
  rcases Nat.eq_zero_or_pos n with rfl | hn
  · exact Nat.zero_le _
  · obtain ⟨⟨hid, hjam, hin⟩, hle⟩ := h hn
    have hs : spendable u = true := spendable_iff.mpr ⟨hid, hjam, hin, by omega⟩
    rw [notesIn, if_pos hs]
    omega

theorem usable_of_le_notesIn {u : CashUnit} {n : ℕ} (h : n ≤ notesIn u) (hn : 0 < n) :
    Usable u ∧ (n : Int) ≤ u.count := by
  unfold notesIn at h
  split_ifs at h with hs
  · obtain ⟨hu, hle⟩ := usable_of_spendable hs
    exact ⟨hu, by omega⟩
  · omega

theorem notesIn_pos {u : CashUnit} (h : spendable u = true) : 0 < notesIn u := by
  rw [notesIn, if_pos h]
  have hc := (spendable_iff.mp h).2.2.2
  omega

theorem pile_eq {u : CashUnit} (h : spendable u = true) : pile u = (u.denomination, notesIn u) := by
  rw [notesIn, if_pos h, pile]

section

variable {t : CashUnits} {u1 u2 u3 rej : CashUnit} (hv : t.values = [u1, u2, u3, rej])
  (h1 : u1.unitId = "CASS1" ∧ u1.denomination = 100000)
  (h2 : u2.unitId = "CASS2" ∧ u2.denomination = 50000)
  (h3 : u3.unitId = "CASS3" ∧ u3.denomination = 20000)
  (h4 : rej.unitId = "REJECT" ∧ rej.denomination = 0)

include hv h1 h2 h3 h4

theorem notesOf_default :
    notesOf t 100000 = notesIn u1 ∧ notesOf t 50000 = notesIn u2 ∧
      notesOf t 20000 = notesIn u3 := by
  have hrej : spendable rej = false := by simp [spendable, h4.1]
  refine ⟨?_, ?_, ?_⟩
  all_goals
    unfold notesOf notesIn
    rw [hv]
    simp only [List.filter_cons, List.filter_nil, h1.2, h2.2, h3.2, hrej]
  · cases spendable u1 <;> simp
  · cases spendable u2 <;> simp
  · cases spendable u3 <;> simp

theorem spendableUnits_default : spendableUnits t = t.values.filter spendable := by
  unfold spendableUnits
  apply List.Pairwise.insertionSort_eq
  apply List.Pairwise.sublist List.filter_sublist
  rw [hv]
  simp [h1.2, h2.2, h3.2, h4.2]

/-- The cassettes the loop runs over are the piles of the three denominations that are not
empty. -/
theorem piles_default :
    (spendableUnits t).map pile =
      [(100000, notesOf t 100000), (50000, notesOf t 50000), (20000, notesOf t 20000)].filter
        fun p => 0 < p.2 := by
  obtain ⟨n1, n2, n3⟩ := notesOf_default hv h1 h2 h3 h4
  have hrej : spendable rej = false := by simp [spendable, h4.1]
  have hpile (u : CashUnit) (d : ℕ) (hd : u.denomination = d) :
      (([u].filter spendable).map pile) = [(d, notesIn u)].filter fun p => 0 < p.2 := by
    cases hs : spendable u with
    | true => simp [hs, pile_eq hs, hd, notesIn_pos hs]
    | false => simp [hs, notesIn]
  rw [n1, n2, n3, spendableUnits_default hv h1 h2 h3 h4, hv]
  have hsplit : [u1, u2, u3, rej].filter spendable =
      [u1].filter spendable ++ [u2].filter spendable ++ [u3].filter spendable := by
    simp only [← List.filter_append]
    simp [List.filter_cons, hrej]
  rw [hsplit, List.map_append, List.map_append, hpile u1 _ h1.2, hpile u2 _ h2.2,
    hpile u3 _ h3.2, ← List.filter_append, ← List.filter_append]
  rfl

/-- The greedy loop on the default cassettes is the greedy pass over three piles. -/
theorem left_default (amount : ℕ) :
    Change.left ((spendableUnits t).map pile) amount =
      Change.left [(100000, notesOf t 100000), (50000, notesOf t 50000), (20000, notesOf t 20000)]
        amount := by
  rw [piles_default hv h1 h2 h3 h4]
  exact Change.left_filter _ amount

theorem payable_default (amount : ℕ) :
    Payable t amount ↔ ∃ x ≤ notesOf t 100000, ∃ y ≤ notesOf t 50000, ∃ z ≤ notesOf t 20000,
      x * 100000 + y * 50000 + z * 20000 = amount := by
  obtain ⟨n1, n2, n3⟩ := notesOf_default hv h1 h2 h3 h4
  rw [n1, n2, n3]
  have htotal (notes : String → ℕ) : (t.values.map fun u => notes u.unitId * u.denomination).sum =
      notes u1.unitId * 100000 + notes u2.unitId * 50000 + notes u3.unitId * 20000 := by
    rw [hv]
    simp only [List.map_cons, List.map_nil, List.sum_cons, List.sum_nil]
    rw [h1.2, h2.2, h3.2, h4.2]
    ring
  constructor
  · rintro ⟨notes, hle, hsum⟩
    simp only [hv, List.mem_cons, List.not_mem_nil, or_false, forall_eq_or_imp, forall_eq] at hle
    rw [htotal] at hsum
    exact ⟨_, le_notesIn hle.1, _, le_notesIn hle.2.1, _, le_notesIn hle.2.2.1, hsum⟩
  · rintro ⟨x, hx, y, hy, z, hz, hsum⟩
    let notes (unitId : String) : ℕ :=
      if unitId = "CASS1" then x else if unitId = "CASS2" then y
      else if unitId = "CASS3" then z else 0
    have e1 : notes u1.unitId = x := by simp [notes, h1.1]
    have e2 : notes u2.unitId = y := by simp [notes, h2.1]
    have e3 : notes u3.unitId = z := by simp [notes, h3.1]
    have e4 : notes rej.unitId = 0 := by simp [notes, h4.1]
    refine ⟨notes, ?_, ?_⟩
    · simp only [hv, List.mem_cons, List.not_mem_nil, or_false, forall_eq_or_imp, forall_eq, e1,
        e2, e3, e4, Nat.lt_irrefl, false_imp_iff, and_true]
      exact ⟨usable_of_le_notesIn hx, usable_of_le_notesIn hy, usable_of_le_notesIn hz⟩
    · rw [htotal, e1, e2, e3, hsum]

/-- Every cassette the loop spends from is the one that is found for its denomination. -/
theorem find_default {u : CashUnit} (hu : u ∈ spendableUnits t) :
    findSpendableUnitByDenom t (.ofInt u.denomination) = some u := by
  obtain ⟨hmem, hs⟩ := mem_spendableUnits.mp hu
  obtain ⟨hid, hjam, -, -⟩ := spendable_iff.mp hs
  have hfound : (findSpendableUnitByDenom t (.ofInt u.denomination)).isSome := by
    rw [findSpendableUnitByDenom, List.find?_isSome]
    exact ⟨u, hmem, by simp [matchesDenom, hid, hjam]⟩
  obtain ⟨v, hf⟩ := Option.isSome_iff_exists.mp hfound
  obtain ⟨hvmem, hden, hvid, -⟩ := find_spec hf
  have hden : v.denomination = u.denomination := by exact_mod_cast Number.ofInt_inj.mp hden
  rw [hf, Option.some.injEq]
  rw [hv] at hmem hvmem
  simp only [List.mem_cons, List.not_mem_nil, or_false] at hmem hvmem
  rcases hmem with rfl | rfl | rfl | rfl <;> rcases hvmem with rfl | rfl | rfl | rfl <;>
    first | rfl | omega

/-- On the default cassettes the request succeeds exactly when the greedy pass pays it. -/
theorem dispense_ok_iff {s : CdmDeviceService} (hst : s.cashUnits = t) {amount : ℕ}
    (hpos : 0 < amount) (hmax : amount < 2 ^ 53)
    (customMix : Option (List (String × Number))) (present : Bool) :
    (∃ r s', dispense s ⟨.ofInt amount, .minNotes, customMix, present⟩ = (.ok r, s')) ↔
      Change.left [(100000, notesOf t 100000), (50000, notesOf t 50000), (20000, notesOf t 20000)]
        amount = 0 := by
  have hdenom : ∀ u ∈ spendableUnits t, 0 < u.denomination := by
    intro u hu
    obtain ⟨hmem, hs⟩ := mem_spendableUnits.mp hu
    have hid := (spendable_iff.mp hs).1
    rw [hv] at hmem
    simp only [List.mem_cons, List.not_mem_nil, or_false] at hmem
    rcases hmem with rfl | rfl | rfl | rfl
    · omega
    · omega
    · omega
    · exact absurd h4.1 hid
  rw [← left_default hv h1 h2 h3 h4, ← calculateMinNotesMix_iff hdenom hmax]
  constructor
  · rintro ⟨r, s', h⟩
    obtain ⟨-, -, hmix, -⟩ := planDispense_spec (dispense_values h).1
    have hamount : r.totalDispensed = amount := by
      obtain ⟨ha, -, -, -⟩ := planDispense_spec (dispense_values h).1
      exact (Number.ofInt_inj.mp ha).symm
    rw [hamount] at hmix
    exact ⟨r.mix, hst ▸ hmix⟩
  · rintro ⟨mix, hmix⟩
    let payload : CdmDispensePayload := ⟨.ofInt amount, .minNotes, customMix, present⟩
    have hchoose : chooseMix s payload amount = .ok mix := by
      rw [← hmix, ← hst]
      rfl
    have hfree : preflight s.cashUnits (objectEntries mix) = .ok () := by
      apply preflight_of_forall
      intro e he
      rw [(objectEntries_perm mix).mem_iff] at he
      obtain ⟨u, hu, hkey, -, hle⟩ := mem_calculateMinNotesMix hmix he
      refine ⟨u, ?_, hle⟩
      rw [hkey, hst]
      exact find_default hv h1 h2 h3 h4 hu
    have hplan : planDispense s payload = .ok ((amount : Int), mix) :=
      planDispense_of rfl (by exact_mod_cast hpos) hchoose hfree
    obtain ⟨s', hs'⟩ := dispense_of_plan hplan
    exact ⟨_, s', hs'⟩

end

/-- What the cassettes hold is far below `2 ^ 53`. -/
theorem payable_lt {t : CashUnits} (ht : DefaultTable t) {amount : ℕ} (h : Payable t amount) :
    amount < 2 ^ 53 := by
  obtain ⟨u1, u2, u3, rej, hv, h1, h2, h3, h4⟩ := ht.units
  have hfew (u : CashUnit) (hu : u ∈ t.values) (hid : u.unitId ≠ "REJECT") : notesIn u ≤ 2500 := by
    have hcount := ht.count_le hu hid
    unfold notesIn
    split_ifs <;> omega
  obtain ⟨n1, n2, n3⟩ := notesOf_default hv h1 h2 h3 h4
  have k1 := hfew u1 (by simp [hv]) (by rw [h1.1]; decide)
  have k2 := hfew u2 (by simp [hv]) (by rw [h2.1]; decide)
  have k3 := hfew u3 (by simp [hv]) (by rw [h3.1]; decide)
  rw [payable_default hv h1 h2 h3 h4, n1, n2, n3] at h
  obtain ⟨x, hx, y, hy, z, hz, hsum⟩ := h
  omega

/-- No payment with an even number of fifties pays more hundreds than the greedy choice. -/
private theorem hundreds_le {k n1 n2 x y : ℕ} (hx : x ≤ n1) (hy : y ≤ n2) (heven : y % 2 = 0)
    (hle : 10 * x + 5 * y ≤ 2 * k) :
    x + y / 2 ≤ min n1 (k / 5) + min n2 ((2 * k - 10 * min n1 (k / 5)) / 5) / 2 := by
  rcases Nat.le_total (k / 5) n1 with h | h
  · rw [Nat.min_eq_right h]
    omega
  · rw [Nat.min_eq_left h]
    omega

/-- In every reachable state, a payable amount is dispensed exactly when the fifties fit. -/
theorem minNotes_pays_iff {s : CdmDeviceService}
    (hs : Runs.Reaches step Runs.free (.new initializeCassettes) s) {amount : ℕ}
    (hpos : 0 < amount) (hdvd : 20000 ∣ amount) (customMix : Option (List (String × Number)))
    (present : Bool) :
    (Payable s.cashUnits amount →
      ∃ r s', dispense s ⟨.ofInt amount, .minNotes, customMix, present⟩ = (.ok r, s')) ↔
      FiftiesFit s.cashUnits amount := by
  have htable := defaultTable_of_reaches hs
  obtain ⟨u1, u2, u3, rej, hv, h1, h2, h3, h4⟩ := htable.units
  have hpaid : (Payable s.cashUnits amount →
      ∃ r s', dispense s ⟨.ofInt amount, .minNotes, customMix, present⟩ = (.ok r, s')) ↔
      (Payable s.cashUnits amount → Change.left [(100000, notesOf s.cashUnits 100000),
        (50000, notesOf s.cashUnits 50000), (20000, notesOf s.cashUnits 20000)] amount = 0) :=
    imp_congr_right fun hpayable =>
      dispense_ok_iff hv h1 h2 h3 h4 rfl hpos (payable_lt htable hpayable) customMix present
  rw [hpaid, payable_default hv h1 h2 h3 h4]
  obtain ⟨k, rfl⟩ := hdvd
  simp only [Change.left, Change.after, FiftiesFit]
  generalize notesOf s.cashUnits 100000 = n1, notesOf s.cashUnits 50000 = n2,
    notesOf s.cashUnits 20000 = n3
  have hhundreds : ∀ x ≤ n1, ∀ y ≤ n2, ∀ z ≤ n3,
      x * 100000 + y * 50000 + z * 20000 = 20000 * k → y % 2 = 0 ∧
        x + y / 2 ≤ min n1 (k / 5) + min n2 ((2 * k - 10 * min n1 (k / 5)) / 5) / 2 := by
    intro x hx y hy z _ hsum
    have heven : y % 2 = 0 := by omega
    exact ⟨heven, hundreds_le hx hy heven (by omega)⟩
  have hx : min n1 (20000 * k / 100000) = min n1 (k / 5) := by congr 1; omega
  rw [hx]
  have hxle : min n1 (k / 5) ≤ n1 ∧ 5 * min n1 (k / 5) ≤ k := by omega
  generalize min n1 (k / 5) = x0 at hhundreds hxle ⊢
  have hy : (20000 * k - x0 * 100000) / 50000 = (2 * k - 10 * x0) / 5 := by omega
  rw [hy]
  have hyle : min n2 ((2 * k - 10 * x0) / 5) ≤ n2 ∧
      10 * x0 + 5 * min n2 ((2 * k - 10 * x0) / 5) ≤ 2 * k := by omega
  generalize min n2 ((2 * k - 10 * x0) / 5) = y0 at hhundreds hyle ⊢
  obtain ⟨rest, hrest, hsum⟩ : ∃ rest, 20000 * k - x0 * 100000 - y0 * 50000 = rest ∧
      rest + x0 * 100000 + y0 * 50000 = 20000 * k := ⟨_, rfl, by omega⟩
  rw [hrest]
  clear hrest hx hy
  rcases Nat.mod_two_eq_zero_or_one y0 with heven | hodd
  · -- an even number of fifties is worth hundreds, so the greedy choice leaves the least
    constructor
    · exact fun _ => .inl heven
    · rintro - ⟨x, hx, y, hy, z, hz, hpaid⟩
      obtain ⟨-, hle⟩ := hhundreds x hx y hy z hz hpaid
      clear hhundreds
      omega
  · -- an odd number of fifties never leaves a multiple of 20000
    have hstuck : rest - min n3 (rest / 20000) * 20000 ≠ 0 := by
      clear hhundreds
      omega
    constructor
    · intro h
      by_contra hfit
      rw [not_or, Nat.not_lt] at hfit
      refine hstuck (h ⟨x0, hxle.1, y0 - 1, by omega, _, hfit.2, ?_⟩)
      clear hhundreds hstuck hfit h
      omega
    · rintro (heven | hlack) ⟨x, hx, y, hy, z, hz, hpaid⟩
      · omega
      · obtain ⟨-, hle⟩ := hhundreds x hx y hy z hz hpaid
        clear hhundreds hstuck
        omega

theorem minNotes_pays_iff_fresh :
    (Payable initializeCassettes 160000 →
      ∃ r s', dispense (.new initializeCassettes) ⟨.ofInt 160000, .minNotes, none, true⟩ =
        (.ok r, s')) ↔ FiftiesFit initializeCassettes 160000 :=
  minNotes_pays_iff (s := .new initializeCassettes) (Runs.Reaches.refl _) (by decide) (by decide)
    none true

/-- Three notes of 20000 are there, but the loop has taken one of 50000 first. -/
theorem minNotes_refuses_sixty_thousand :
    Runs.Reaches step Runs.free (.new initializeCassettes) (.new initializeCassettes) ∧
      20000 ∣ 60000 ∧ Payable initializeCassettes 60000 ∧
      (dispense (.new initializeCassettes) ⟨.ofInt 60000, .minNotes, none, true⟩).1 =
        .error (.cannotDispense (.ofInt 10000)) := by
  refine ⟨Runs.Reaches.refl _, by decide, ?_, by decide +kernel⟩
  refine ⟨fun unitId => if unitId = "CASS3" then 3 else 0, ?_, by decide⟩
  simp only [initializeCassettes, List.mem_cons, List.not_mem_nil, or_false, forall_eq_or_imp,
    forall_eq, Usable]
  decide

end AtmXfs.Cdm
