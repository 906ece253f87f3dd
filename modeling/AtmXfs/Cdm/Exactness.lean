import AtmXfs.Cdm.Mix

namespace AtmXfs.Cdm

open Js

/-- Every cassette but the reject unit has a positive denomination and no negative count. -/
def Stocked (units : List CashUnit) : Prop :=
  ∀ u ∈ units, u.unitId ≠ "REJECT" → 0 < u.denomination ∧ 0 ≤ u.count

theorem mem_setUnit {units : List CashUnit} {u v : CashUnit} (h : v ∈ setUnit units u) :
    v = u ∨ v ∈ units := by
  unfold setUnit at h
  split_ifs at h
  · obtain ⟨w, hw, rfl⟩ := List.mem_map.mp h
    split_ifs
    · exact .inl rfl
    · exact .inr hw
  · rcases List.mem_append.mp h with h | h
    · exact .inr h
    · exact .inl (List.mem_singleton.mp h)

theorem mem_loadCassettes {units : List CashUnit} {u : CashUnit}
    (h : u ∈ (loadCassettes units).values) : u ∈ units := by
  have hfold : ∀ (units : List CashUnit) (t : CashUnits),
      u ∈ (units.foldl CashUnits.set t).values → u ∈ t.values ∨ u ∈ units := by
    intro units
    induction units with
    | nil => exact fun t h => .inl h
    | cons v units ih =>
      intro t h
      rcases ih (t.set v) h with h | h
      · rcases mem_setUnit h with rfl | h
        · exact .inr List.mem_cons_self
        · exact .inl h
      · exact .inr (List.mem_cons_of_mem _ h)
  exact (hfold units CashUnits.empty h).resolve_left List.not_mem_nil

/-- The notes a mix asks for under all the names of one denomination. -/
def notesFor (mix : Mix) (denom : Number) : Int :=
  ((mix.filter fun e => e.1.toNumber = denom).map Prod.snd).sum

theorem notesFor_perm {mix mix' : Mix} (h : mix.Perm mix') (denom : Number) :
    notesFor mix denom = notesFor mix' denom := ((h.filter _).map _).sum_eq

/-- The cassette that pays a denomination gives the notes of all its names. -/
theorem drawnFrom_sum {t : CashUnits} {u : CashUnit} (mix : Mix)
    (hu : findSpendableUnitByDenom t (.ofInt u.denomination) = some u) :
    (drawnFrom t (objectEntries mix) u.unitId).sum = notesFor mix (.ofInt u.denomination) := by
  rw [drawnFrom_found _ hu]
  exact notesFor_perm (objectEntries_perm mix) _

/-- What the deduction leaves is never negative exactly when no cassette pays more than it holds. -/
theorem counts_iff {s s' : CdmDeviceService} {payload : CdmDispensePayload} {r : CdmDispenseResult}
    (hs : Stocked s.cashUnits.values) (h : dispense s payload = (.ok r, s')) :
    (∀ u ∈ s'.cashUnits.values, 0 ≤ u.count) ↔
      (∀ u ∈ s.cashUnits.values, u.unitId = "REJECT" → 0 ≤ u.count) ∧
      ∀ denom u, findSpendableUnitByDenom s.cashUnits denom = some u →
        notesFor r.mix denom ≤ u.count := by
  rw [(dispense_values h).2]
  simp only [List.mem_map, forall_exists_index, and_imp, forall_apply_eq_imp_iff₂,
    foldl_drawNotes_count]
  constructor
  · intro hcounts
    constructor
    · intro u hu hid
      have hcount := hcounts u hu
      rw [hid, drawnFrom_reject] at hcount
      simpa using hcount
    · intro denom u hu
      obtain ⟨hmem, rfl, -, -⟩ := find_spec hu
      have hcount := hcounts u hmem
      rw [drawnFrom_sum r.mix hu] at hcount
      omega
  · rintro ⟨hreject, hfound⟩ u hu
    by_cases hid : u.unitId = "REJECT"
    · rw [hid, drawnFrom_reject]
      simpa using hreject u hu hid
    · by_cases hf : findSpendableUnitByDenom s.cashUnits (.ofInt u.denomination) = some u
      · have hle := hfound _ u hf
        rw [drawnFrom_sum r.mix hf]
        omega
      · rw [drawnFrom_hidden _ hu hf]
        simpa using (hs u hu hid).2

/-- In a minimal mix a denomination has one name, and the pre-flight has checked its count. -/
theorem notesFor_minNotes {s : CdmDeviceService} (hs : Stocked s.cashUnits.values) {amount : Int}
    {mix : Mix} (hmix : calculateMinNotesMix s.cashUnits amount = .ok mix)
    (hpre : preflight s.cashUnits (objectEntries mix) = .ok ()) (denom : Number) (u : CashUnit)
    (hu : findSpendableUnitByDenom s.cashUnits denom = some u) :
    notesFor mix denom ≤ u.count := by
  obtain ⟨hmem, hden, hid, -⟩ := find_spec hu
  have hkeys : (mix.map Prod.fst).Nodup := by
    have hloop : ((minNotesLoop (spendableUnits s.cashUnits) []
        (.ofInt amount)).1.map Prod.fst).Nodup :=
      keys_minNotesLoop List.nodup_nil
    simp only [calculateMinNotesMix] at hmix
    split_ifs at hmix
    cases hmix
    exact hloop
  have hname : ∀ e ∈ mix.filter (fun e => e.1.toNumber = denom),
      e.1 = .ofNumber u.denomination ∧ e.2 ≤ u.count := by
    intro e he
    rw [List.mem_filter, decide_eq_true_eq] at he
    obtain ⟨v, -, hkey, -, -⟩ := mem_calculateMinNotesMix hmix he.1
    have hsame : v.denomination = u.denomination := by
      have hnum := he.2.trans hden.symm
      rw [hkey] at hnum
      exact_mod_cast Number.ofInt_inj.mp hnum
    refine ⟨by rw [hkey, hsame], ?_⟩
    obtain ⟨w, hw, hle⟩ := preflight_ok hpre e ((objectEntries_perm mix).mem_iff.mpr he.1)
    rw [he.2, hu, Option.some.injEq] at hw
    rw [hw]
    exact hle
  have hnodup : ((mix.filter fun e => e.1.toNumber = denom).map Prod.fst).Nodup :=
    hkeys.sublist (List.filter_sublist.map Prod.fst)
  unfold notesFor
  rcases hf : mix.filter fun e => e.1.toNumber = denom with _ | ⟨e, _ | ⟨e', es⟩⟩
  · rw [hf]
    exact (hs u hmem hid).2
  · rw [hf] at hname ⊢
    simpa using (hname e List.mem_cons_self).2
  · rw [hf] at hname hnodup
    have h1 := (hname e List.mem_cons_self).1
    have h2 := (hname e' (List.mem_cons_of_mem _ List.mem_cons_self)).1
    simp [h1, h2] at hnodup

/-- A custom mix asks for the notes that were requested. -/
theorem notesFor_custom {amount : Int} {custom : List (String × Number)} {mix : Mix}
    (h : validateCustomMix amount custom = .ok mix) (denom : Number) :
    notesFor mix denom = requestedNotes custom denom := by
  obtain ⟨hperm, -⟩ := validateCustomMix_spec h
  rw [notesFor_perm hperm, notesFor, requestedNotes, List.filter_map, List.map_map]
  rfl

/-- A minimal mix is worth the amount exactly when no denomination is split. -/
theorem mixValue_minNotes {s : CdmDeviceService} (hs : Stocked s.cashUnits.values) {amount : Int}
    (hpos : 0 < amount) (hmax : amount < 2 ^ 53) {mix : Mix}
    (hmix : calculateMinNotesMix s.cashUnits amount = .ok mix) :
    amount = mixValue mix ↔
      Change.NoSplit ((spendableUnits s.cashUnits).map pile) amount.toNat := by
  obtain ⟨a, rfl⟩ := Int.eq_ofNat_of_zero_le hpos.le
  have ha : a < 2 ^ 53 := by exact_mod_cast hmax
  have hunits : ∀ u ∈ spendableUnits s.cashUnits, 0 < u.denomination ∧ 0 < u.count := by
    intro u hu
    obtain ⟨hmem, hspend⟩ := mem_spendableUnits.mp hu
    obtain ⟨hid, -, -, hc⟩ := spendable_iff.mp hspend
    exact ⟨(hs u hmem hid).1, hc⟩
  have hsorted : (spendableUnits s.cashUnits).Pairwise
      fun u v => v.denomination ≤ u.denomination := by
    have htotal : Std.Total fun u v : CashUnit => v.denomination ≤ u.denomination :=
      ⟨fun u v => Nat.le_total _ _⟩
    have htrans : IsTrans CashUnit fun u v => v.denomination ≤ u.denomination :=
      ⟨fun _ _ _ h h' => Nat.le_trans h' h⟩
    exact List.pairwise_insertionSort _ _
  have hbehind : Behind (spendableUnits s.cashUnits) [] :=
    ⟨List.nodup_nil, by simp, by simp⟩
  obtain ⟨-, hvalue⟩ := minNotesLoop_value hunits hsorted hbehind ha
  have hpaid := minNotesLoop_left hunits [] ha
  simp only [calculateMinNotesMix] at hmix
  split_ifs at hmix with hrem
  cases hmix
  rw [hpaid, Number.lt_ofInt, decide_eq_true_eq] at hrem
  have hfresh : HeadFresh (spendableUnits s.cashUnits) [] a := by
    cases spendableUnits s.cashUnits with
    | nil => trivial
    | cons u us => exact fun h => absurd h List.not_mem_nil
  rw [Int.toNat_natCast, ← (hvalue.trans (and_iff_left hfresh)), mixValue_nil]
  omega

/-- A dispense that returns is exact if and only if the request was covered. -/
theorem exact_iff_covered {s s' : CdmDeviceService} {payload : CdmDispensePayload}
    {r : CdmDispenseResult} (hs : Stocked s.cashUnits.values) (hsafe : Safe s payload)
    (h : dispense s payload = (.ok r, s')) : Exact s payload r s' ↔ Covered s payload := by
  obtain ⟨hplan, -⟩ := dispense_values h
  obtain ⟨hamount, hpos, hmix, hpre⟩ := planDispense_spec hplan
  have hmax : r.totalDispensed < 2 ^ 53 := by
    have hlt := hsafe.1
    rwa [hamount, Number.lt_ofInt, decide_eq_true_eq] at hlt
  have hheld := heldValue_dispense h
  have hexact : Exact s payload r s' ↔
      r.totalDispensed = mixValue r.mix ∧ ∀ u ∈ s'.cashUnits.values, 0 ≤ u.count := by
    constructor
    · intro hx
      exact ⟨hx.total, hx.counts⟩
    · rintro ⟨htotal, hcounts⟩
      exact ⟨by rw [hamount, htotal], htotal, hheld, hcounts⟩
  rw [hexact, counts_iff hs h]
  have hminNotes (hm : calculateMinNotesMix s.cashUnits r.totalDispensed = .ok r.mix) :
      (r.totalDispensed = mixValue r.mix ∧
        (∀ u ∈ s.cashUnits.values, u.unitId = "REJECT" → 0 ≤ u.count) ∧
        ∀ denom u, findSpendableUnitByDenom s.cashUnits denom = some u →
          notesFor r.mix denom ≤ u.count) ↔
      (∀ u ∈ s.cashUnits.values, u.unitId = "REJECT" → 0 ≤ u.count) ∧
        Change.NoSplit ((spendableUnits s.cashUnits).map pile)
          (payload.amount.toInt?.getD 0).toNat := by
    have hvalue := mixValue_minNotes hs hpos hmax hm
    have hnotes := notesFor_minNotes hs hm hpre
    rw [hvalue, hamount, Number.toInt?_ofInt, Option.getD_some]
    constructor
    · rintro ⟨hsplit, hreject, -⟩
      exact ⟨hreject, hsplit⟩
    · rintro ⟨hreject, hsplit⟩
      exact ⟨hsplit, hreject, hnotes⟩
  unfold chooseMix at hmix
  split at hmix
  · next custom hmode hcustom =>
    have hvalue := (validateCustomMix_spec hmix).2 hmax
    have hnotes := notesFor_custom hmix
    rw [Covered, hmode, hcustom]
    simp only [hvalue, true_and, hnotes]
  · next hmode =>
    rw [hminNotes hmix, Covered]
    split
    · next custom hm hc => exact absurd hc (hmode custom hm)
    · rfl

/-- The condition on the steps of a run: a dispense that pays is safe and covered. -/
def PaysCovered (s : CdmDeviceService) : CdmOp → Prop
  | .command (.dispense payload) =>
    (∃ r s', dispense s payload = (.ok r, s')) → Safe s payload ∧ Covered s payload
  | _ => True

theorem Serviced.stocked {u u' : CashUnit} (h : Serviced u u')
    (hu : u.unitId ≠ "REJECT" → 0 < u.denomination ∧ 0 ≤ u.count) :
    u'.unitId ≠ "REJECT" → 0 < u'.denomination ∧ 0 ≤ u'.count := by
  intro hid
  cases h with
  | replenished n hn _ => exact ⟨(hu hid).1, hn⟩
  | jammed => exact hu hid
  | cleared => exact hu hid
  | rejected n hrej => exact absurd hrej hid

theorem step_stocked {s s' : CdmDeviceService} {op : CdmOp} (hs : Stocked s.cashUnits.values)
    (hok : PaysCovered s op) (h : step s op = some s') : Stocked s'.cashUnits.values := by
  rcases step_units h with h | ⟨payload, r, rfl, hd⟩ | ⟨u, hu, u', hserv, hset⟩
  · rw [h]
    exact hs
  · cases r with
    | error e =>
      rcases dispense_cases hd with ⟨_, -, -, rfl⟩ | ⟨_, _, _, -, -, hr, -⟩
      · exact hs
      · cases hr
    | ok r =>
      obtain ⟨hsafe, hcovered⟩ := hok ⟨r, s', hd⟩
      have hx := (exact_iff_covered hs hsafe hd).mpr hcovered
      intro v hv hid
      refine ⟨?_, hx.counts v hv⟩
      rw [(dispense_values hd).2] at hv
      obtain ⟨u, hu, rfl⟩ := List.mem_map.mp hv
      have hshape := foldl_drawNotes_shape u
        (drawnFrom s.cashUnits (objectEntries r.mix) u.unitId)
      rw [unitId_of_shape hshape] at hid
      rw [denomination_of_shape hshape]
      exact (hs u hu hid).1
  · rw [hset]
    intro v hv
    rcases CashUnits.mem_set hu (unitId_of_shape hserv.shape) hv with rfl | ⟨hv, -⟩
    · exact hserv.stocked (hs u hu)
    · exact hs v hv

/-- From any loaded table, in every state that a run of safe and covered payments reaches, a safe
dispense that returns is exact if and only if it is covered. -/
theorem dispense_exact_iff {units : List CashUnit} (hunits : Stocked units)
    {s s' : CdmDeviceService}
    (hs : Runs.Reaches step PaysCovered (.new (loadCassettes units)) s)
    {payload : CdmDispensePayload} (hsafe : Safe s payload) {r : CdmDispenseResult}
    (h : dispense s payload = (.ok r, s')) : Exact s payload r s' ↔ Covered s payload := by
  have hinit : Stocked (loadCassettes units).values := fun u hu => hunits u (mem_loadCassettes hu)
  have hstocked : Stocked s.cashUnits.values :=
    Runs.Reaches.invariant (P := fun s => Stocked s.cashUnits.values)
      (fun s op s' hs hok hstep => step_stocked hs hok hstep) hinit hs
  exact exact_iff_covered hstocked hsafe h

/-- Two cassettes of 100000 with one note each. -/
def twoHundreds : List CashUnit :=
  [⟨"CASS1", 100000, .ok, 1, 1, 10, 0⟩, ⟨"CASS2", 100000, .ok, 1, 1, 10, 0⟩]

theorem stocked_twoHundreds : Stocked twoHundreds := by
  simp [Stocked, twoHundreds]

theorem dispense_exact_iff_twoHundreds :
    Exact (.new (loadCassettes twoHundreds)) ⟨.ofInt 100000, .minNotes, none, true⟩
      ⟨[(.ofNumber 100000, 1)], 100000⟩
      (dispense (.new (loadCassettes twoHundreds)) ⟨.ofInt 100000, .minNotes, none, true⟩).2 ↔
    Covered (.new (loadCassettes twoHundreds)) ⟨.ofInt 100000, .minNotes, none, true⟩ :=
  dispense_exact_iff stocked_twoHundreds (Runs.Reaches.refl _) (by unfold Safe; decide +kernel)
    (show dispense _ _ = _ from by decide +kernel)

/-- A cassette of the largest safe integer and one of 2, with one note each. -/
def unsafeNotes : List CashUnit :=
  [⟨"CASS1", 9007199254740991, .ok, 1, 1, 10, 0⟩, ⟨"CASS2", 2, .ok, 1, 1, 10, 0⟩]

/-- For 200000 the second cassette overwrites the note of the first one in the mix; two names of
one denomination draw a cassette below zero; and the sum of a mix is rounded to the amount. -/
theorem dispense_not_exact :
    (∃ r s', dispense (.new (loadCassettes twoHundreds)) ⟨.ofInt 200000, .minNotes, none, true⟩ =
        (.ok r, s') ∧
      ¬ Exact (.new (loadCassettes twoHundreds)) ⟨.ofInt 200000, .minNotes, none, true⟩ r s') ∧
    (∃ r s', dispense (.new (loadCassettes twoHundreds))
        ⟨.ofInt 200000, .custom, some [("100000", .ofInt 1), ("1e5", .ofInt 1)], true⟩ =
        (.ok r, s') ∧
      ¬ Exact (.new (loadCassettes twoHundreds))
        ⟨.ofInt 200000, .custom, some [("100000", .ofInt 1), ("1e5", .ofInt 1)], true⟩ r s') ∧
    (∃ r s', dispense (.new (loadCassettes unsafeNotes))
        ⟨.ofInt 9007199254740992, .custom,
          some [("2", .ofInt 1), ("9007199254740991", .ofInt 1)], true⟩ = (.ok r, s') ∧
      ¬ Exact (.new (loadCassettes unsafeNotes))
        ⟨.ofInt 9007199254740992, .custom,
          some [("2", .ofInt 1), ("9007199254740991", .ofInt 1)], true⟩ r s') := by
  refine ⟨?_, ?_, ?_⟩
  · refine ⟨⟨[(.ofNumber 100000, 1)], 200000⟩,
      (dispense (.new (loadCassettes twoHundreds)) ⟨.ofInt 200000, .minNotes, none, true⟩).2,
      by decide +kernel, fun hx => ?_⟩
    have htotal := hx.total
    revert htotal
    decide
  · refine ⟨⟨[(.text "100000", 1), (.text "1e5", 1)], 200000⟩,
      (dispense (.new (loadCassettes twoHundreds))
        ⟨.ofInt 200000, .custom, some [("100000", .ofInt 1), ("1e5", .ofInt 1)], true⟩).2,
      by decide +kernel, fun hx => ?_⟩
    have hcounts := hx.counts
    revert hcounts
    decide +kernel
  · refine ⟨⟨[(.text "2", 1), (.text "9007199254740991", 1)], 9007199254740992⟩,
      (dispense (.new (loadCassettes unsafeNotes)) ⟨.ofInt 9007199254740992, .custom,
        some [("2", .ofInt 1), ("9007199254740991", .ofInt 1)], true⟩).2,
      by decide +kernel, fun hx => ?_⟩
    have htotal := hx.total
    revert htotal
    decide +kernel

end AtmXfs.Cdm
