import AtmXfs.Cdm.Fewest
import AtmXfs.Cdm.Bounds

namespace AtmXfs.Cdm

open Js

/-- The notes missing from a cassette since it was first filled, in money. -/
def missing (u : CashUnit) : Int := max 0 (u.initialCount - u.count) * (u.denomination : Int)

/-- The total that CASH_UNIT_INFO derives from the cassettes. -/
def reported (t : CashUnits) : Int := (t.values.map missing).sum

theorem getCashUnitInfo_eq (s : CdmDeviceService) :
    getCashUnitInfo s = .unitInfo s.cashUnits.values (reported s.cashUnits) := rfl

/-- The dispenser with the sum of what it has answered to its DISPENSE commands. -/
structure Till where
  device : Dispenser
  dispensed : Int

def Till.start : Till := ⟨.whole (.new initializeCassettes), 0⟩

/-- What a call pays out, if it is a DISPENSE that succeeds. -/
def paidBy : Dispenser → CdmCall → Int
  | .whole s, .request commandCode payload => paidOut (executeRequest s commandCode payload).1
  | _, _ => 0

def tillStep (t : Till) (call : CdmCall) : Option Till :=
  (callStep t.device call).map fun d => ⟨d, t.dispensed + paidBy t.device call⟩

/-- CASH_UNIT_INFO reports what has been dispensed, of cassettes that hold whole notes. -/
def Reconciled (t : Till) : Prop :=
  match t.device with
  | .whole s => getCashUnitInfo s = .unitInfo s.cashUnits.values t.dispensed
  | .uneven _ _ _ => False

/-- The notes in a cassette above what it was first filled with. -/
def surplus (u : CashUnit) : Int := max 0 (u.count - u.initialCount)

/-- What a mix takes out of such notes, in money. -/
def surplusTaken (t : CashUnits) (mix : Mix) : Int :=
  (t.values.map fun u =>
    min (drawnFrom t (objectEntries mix) u.unitId).sum (surplus u) * (u.denomination : Int)).sum

/-- A request that passes its checks takes no notes out of a cassette that holds more than it was
first filled with. From `2 ^ 53` on, where the sum of a custom mix is rounded, what it takes so is
worth what the mix is worth above the amount. -/
def CountsDispense (s : CdmDeviceService) (payload : CdmDispensePayload) : Prop :=
  ∀ amount mix, planDispense s payload = .ok (amount, mix) →
    if amount < 2 ^ 53 then
      ∀ denom u, findSpendableUnitByDenom s.cashUnits denom = some u → 0 < notesFor mix denom →
        u.count ≤ u.initialCount
    else surplusTaken s.cashUnits mix = mixValue mix - amount

/-- A refill that is accepted is to an integer, and leaves as much missing as before. -/
def CountsRefill (unit : CashUnit) (newCount : Number) : Prop :=
  (newCount.lt (.ofInt 0) ∨ (Number.ofInt unit.maximum).lt newCount) ∨
    ∃ n : Int, newCount = .ofInt n ∧ missing { unit with count := n } = missing unit

/-- The condition on a call, in the state before it. -/
def Counts (t : Till) (call : CdmCall) : Prop :=
  match t.device, call with
  | .whole s, .request commandCode payload => ∀ p, commandOf commandCode payload =
      some (.dispense p) → s.injectedError = none → CountsDispense s p
  | .whole s, .replenish unitId newCount => ∀ unit, s.cashUnits.get unitId = some unit →
      CountsRefill unit newCount
  | _, _ => True

theorem FromDefault.denominations {s : CdmDeviceService} (h : FromDefault s) :
    DefaultDenominations s.cashUnits := by
  have hnames := congrArg (List.map fun e => (e.1, e.2.1)) h.shapes
  simp only [List.map_map] at hnames
  exact hnames

theorem reported_set {t : CashUnits} {u : CashUnit} (hu : u ∈ t.values) (u' : CashUnit)
    (hid : u'.unitId = u.unitId) : reported (t.set u') = reported t + missing u' - missing u :=
  sum_set hu hid missing

/-- Between two sums of which one has no larger terms, equality is that of all the terms. -/
theorem sum_eq_iff {α : Type} {l : List α} {f g : α → Int} (hle : ∀ a ∈ l, f a ≤ g a) :
    (l.map f).sum = (l.map g).sum ↔ ∀ a ∈ l, f a = g a := by
  constructor
  · intro hsum a ha
    by_contra hne
    have hlt : f a < g a := lt_of_le_of_ne (hle a ha) hne
    exact (List.sum_lt_sum f g hle ⟨a, ha, hlt⟩).ne hsum
  · intro heq
    rw [List.map_congr_left heq]

/-- The mix of an accepted request below `2 ^ 53` is worth what is asked for. -/
theorem mixValue_plan {s : CdmDeviceService} (hdefault : FromDefault s)
    {payload : CdmDispensePayload} {amount : Int} {mix : Mix}
    (h : planDispense s payload = .ok (amount, mix)) (hmax : amount < 2 ^ 53) :
    mixValue mix = amount := by
  obtain ⟨-, hpos, hmix, -⟩ := planDispense_spec h
  obtain ⟨a, rfl⟩ := Int.eq_ofNat_of_zero_le hpos.le
  unfold chooseMix at hmix
  split at hmix
  · exact (validateCustomMix_spec hmix).2 hmax
  · exact (calculateMinNotesMix_pieces hdefault.denominations (by exact_mod_cast hmax) hmix).2.2

/-- What the cassettes have given is worth the mix. -/
theorem sum_drawn {s s' : CdmDeviceService} {payload : CdmDispensePayload} {r : CdmDispenseResult}
    (h : dispense s payload = (.ok r, s')) :
    (s.cashUnits.values.map fun u =>
      (drawnFrom s.cashUnits (objectEntries r.mix) u.unitId).sum * (u.denomination : Int)).sum =
      mixValue r.mix := by
  let drawn : CashUnit → List Int := fun u => drawnFrom s.cashUnits (objectEntries r.mix) u.unitId
  have hunit : ∀ u ∈ s.cashUnits.values,
      unitValue ((drawn u).foldl drawNotes u) + (drawn u).sum * (u.denomination : Int) =
        unitValue u := by
    intro u _
    have hshape := foldl_drawNotes_shape u (drawn u)
    rw [unitValue, unitId_of_shape hshape, denomination_of_shape hshape, foldl_drawNotes_count,
      unitValue]
    split_ifs with hid
    · have hnone : drawn u = [] := by
        show drawnFrom _ _ u.unitId = []
        rw [hid, drawnFrom_reject]
      rw [hnone]
      simp
    · ring
  have hsum := congrArg List.sum (List.map_congr_left hunit)
  rw [List.sum_map_add] at hsum
  have hheld := heldValue_dispense h
  rw [heldValue, (dispense_values h).2, List.map_map] at hheld
  have hbefore : heldValue s.cashUnits = (s.cashUnits.values.map unitValue).sum := rfl
  have hafter : (s.cashUnits.values.map
      (unitValue ∘ fun u => (drawn u).foldl drawNotes u)).sum =
        (s.cashUnits.values.map fun u => unitValue ((drawn u).foldl drawNotes u)).sum := rfl
  rw [hafter, hbefore] at hheld
  show (s.cashUnits.values.map fun u => (drawn u).sum * (u.denomination : Int)).sum = _
  omega

/-- Notes drawn go missing one for one, but for those that were more than at first. -/
theorem missing_drawn (u : CashUnit) {ns : List Int} (hn : 0 ≤ ns.sum) :
    missing (ns.foldl drawNotes u) + min ns.sum (surplus u) * (u.denomination : Int) =
      missing u + ns.sum * (u.denomination : Int) := by
  have hshape := foldl_drawNotes_shape u ns
  have hinit := initialCount_of_shape hshape
  have hdenom := denomination_of_shape hshape
  have hcount := foldl_drawNotes_count u ns
  generalize ns.sum = n at hn hcount ⊢
  have hnotes : max 0 (u.initialCount - (u.count - n)) + min n (surplus u) =
      max 0 (u.initialCount - u.count) + n := by
    unfold surplus
    omega
  rw [missing, missing, hinit, hcount, hdenom, ← Int.add_mul, hnotes, Int.add_mul]

/-- No surplus is given away exactly if no cassette that pays holds one. -/
theorem surplusTaken_eq_zero_iff {s : CdmDeviceService} (hdefault : FromDefault s) {mix : Mix}
    (hmix : ∀ e ∈ mix, 0 ≤ e.2) : surplusTaken s.cashUnits mix = 0 ↔
      ∀ denom u, findSpendableUnitByDenom s.cashUnits denom = some u → 0 < notesFor mix denom →
        u.count ≤ u.initialCount := by
  let drawn : CashUnit → List Int := fun u => drawnFrom s.cashUnits (objectEntries mix) u.unitId
  have hentries : ∀ e ∈ objectEntries mix, 0 ≤ e.2 :=
    fun e he => hmix e ((objectEntries_perm mix).mem_iff.mp he)
  have hnonneg (u : CashUnit) : 0 ≤ (drawn u).sum := drawnFrom_nonneg hentries u.unitId
  have hterm (u : CashUnit) : 0 ≤ min (drawn u).sum (surplus u) * (u.denomination : Int) := by
    have hpart : 0 ≤ min (drawn u).sum (surplus u) := le_min (hnonneg u) (le_max_left _ _)
    exact Int.mul_nonneg hpart (Int.natCast_nonneg _)
  have hzero : surplusTaken s.cashUnits mix = 0 ↔ ∀ u ∈ s.cashUnits.values,
      0 = min (drawn u).sum (surplus u) * (u.denomination : Int) := by
    have hnone : (s.cashUnits.values.map fun _ => (0 : Int)).sum = 0 := by simp
    rw [← sum_eq_iff fun u _ => hterm u, hnone, eq_comm]
    rfl
  rw [hzero]
  constructor
  · intro hall denom u hu hpos
    obtain ⟨hmem, rfl, hid, -⟩ := find_spec hu
    have hdenom := hdefault.denomination_pos hmem hid
    have hnotes : 0 < (drawn u).sum := by
      show 0 < (drawnFrom s.cashUnits (objectEntries mix) u.unitId).sum
      rw [drawnFrom_sum mix hu]
      exact hpos
    have hfactor := (Int.mul_eq_zero.mp (hall u hmem).symm).resolve_right (by omega)
    unfold surplus at hfactor
    omega
  · intro hcounts u hmem
    by_cases hfound : findSpendableUnitByDenom s.cashUnits (.ofInt u.denomination) = some u
    · have hnotes : (drawn u).sum = notesFor mix (.ofInt u.denomination) :=
        drawnFrom_sum mix hfound
      have hpart : min (drawn u).sum (surplus u) = 0 := by
        have hkeeps := hcounts _ u hfound
        have hle := hnonneg u
        rw [← hnotes] at hkeeps
        unfold surplus
        omega
      rw [hpart, Int.zero_mul]
    · have hnone : drawn u = [] := drawnFrom_hidden _ hmem hfound
      have hpart : min ([] : List Int).sum (surplus u) = 0 := min_eq_left (le_max_left _ _)
      rw [hnone, hpart, Int.zero_mul]

/-- A dispense shows in the report but for the surplus that it gives away. -/
theorem reported_drawn {s s' : CdmDeviceService} {payload : CdmDispensePayload}
    {r : CdmDispenseResult} (h : dispense s payload = (.ok r, s')) :
    reported s'.cashUnits + surplusTaken s.cashUnits r.mix =
      reported s.cashUnits + mixValue r.mix := by
  obtain ⟨hplan, hvalues⟩ := dispense_values h
  obtain ⟨-, -, hmix, -⟩ := planDispense_spec hplan
  have hentries : ∀ e ∈ objectEntries r.mix, 0 ≤ e.2 :=
    fun e he => chooseMix_nonneg hmix e ((objectEntries_perm r.mix).mem_iff.mp he)
  rw [← sum_drawn h, reported, hvalues, List.map_map, surplusTaken, reported, ← List.sum_map_add,
    ← List.sum_map_add]
  congr 1
  apply List.map_congr_left
  intro u _
  exact missing_drawn u (drawnFrom_nonneg hentries u.unitId)

/-- A dispense shows in the report exactly if it counts as it should. -/
theorem reported_dispense {s s' : CdmDeviceService} (hdefault : FromDefault s)
    {payload : CdmDispensePayload} {r : CdmDispenseResult}
    (h : dispense s payload = (.ok r, s')) :
    reported s'.cashUnits = reported s.cashUnits + r.totalDispensed ↔
      CountsDispense s payload := by
  obtain ⟨hplan, -⟩ := dispense_values h
  obtain ⟨-, -, hmix, -⟩ := planDispense_spec hplan
  have hreport := reported_drawn h
  have hcounts : CountsDispense s payload ↔ if r.totalDispensed < 2 ^ 53 then
      ∀ denom u, findSpendableUnitByDenom s.cashUnits denom = some u → 0 < notesFor r.mix denom →
        u.count ≤ u.initialCount
      else surplusTaken s.cashUnits r.mix = mixValue r.mix - r.totalDispensed := by
    constructor
    · exact fun hcounts => hcounts _ _ hplan
    · intro hcounts amount mix hplan'
      rw [hplan] at hplan'
      cases hplan'
      exact hcounts
  rw [hcounts]
  split_ifs with hmax
  · have hworth := mixValue_plan hdefault hplan hmax
    rw [← surplusTaken_eq_zero_iff hdefault (chooseMix_nonneg hmix)]
    omega
  · omega

theorem FromDefault.missing_reject {s : CdmDeviceService} (h : FromDefault s) {u : CashUnit}
    (hu : u ∈ s.cashUnits.values) (hid : u.unitId = "REJECT") (n : Int) :
    missing { u with count := n } = 0 := by
  have hshape : shape u ∈ initializeCassettes.values.map shape := by
    rw [← h.shapes]
    exact List.mem_map_of_mem hu
  obtain ⟨v, hv, hsame⟩ := List.mem_map.mp hshape
  have hdefault : ∀ v ∈ initializeCassettes.values, v.unitId = "REJECT" → v.denomination = 0 := by
    decide
  have hzero : u.denomination = 0 := by
    rw [← denomination_of_shape hsame]
    exact hdefault v hv ((unitId_of_shape hsame).trans hid)
  simp [missing, hzero]

/-- Of the commands without an injected error only DISPENSE pays, and only it moves the report. -/
theorem reported_quiet {s s' : CdmDeviceService} (hdefault : FromDefault s) {c : CdmCommand}
    {r : Except CdmError CdmResult} (hc : ∀ payload, c ≠ .dispense payload)
    (h : executeCommand s c = (r, s')) :
    reported s'.cashUnits = reported s.cashUnits + paidOut r := by
  have hpaid : paidOut r = 0 := by
    apply paidOut_quiet
    intro d hr
    rw [hr] at h
    obtain ⟨payload, hpayload, -⟩ := dispensed_cases h
    exact hc payload hpayload
  rw [hpaid, Int.add_zero]
  rcases executeCommand_cases h with hsame | ⟨payload, r', hpayload, -⟩ |
    ⟨-, cash, u, -, hget, hset⟩
  · rw [hsame]
  · exact absurd hpayload (hc payload)
  · obtain ⟨hmem, hid⟩ := CashUnits.get_spec hget
    have hbefore : missing u = 0 := hdefault.missing_reject hmem hid u.count
    have hafter := hdefault.missing_reject hmem hid (u.count + totalNotes cash.notes)
    have hreport := reported_set hmem { u with count := u.count + totalNotes cash.notes } rfl
    rw [hset, hreport, hafter, hbefore]
    omega

theorem reported_executeCommand {s s' : CdmDeviceService} (hdefault : FromDefault s)
    {c : CdmCommand} {r : Except CdmError CdmResult} (h : executeCommand s c = (r, s')) :
    reported s'.cashUnits = reported s.cashUnits + paidOut r ↔
      ∀ p, c = .dispense p → s.injectedError = none → CountsDispense s p := by
  by_cases hdispense : ∃ payload, c = .dispense payload
  · obtain ⟨payload, rfl⟩ := hdispense
    have hcounts : (∀ p, CdmCommand.dispense payload = .dispense p → s.injectedError = none →
        CountsDispense s p) ↔ (s.injectedError = none → CountsDispense s payload) := by
      simp
    rw [hcounts]
    cases hinjected : s.injectedError with
    | some code =>
      have hcommand : CdmCommand.dispense payload ≠ .reset := nofun
      cases executeCommand_injected hcommand hinjected h
      exact iff_of_true (Int.add_zero _).symm nofun
    | none =>
      obtain ⟨answer, hd, rfl⟩ := executeCommand_dispense hinjected h
      cases answer with
      | ok d =>
        have hpays := reported_dispense hdefault hd
        exact hpays.trans ⟨fun hcounts _ => hcounts, fun hcounts => hcounts rfl⟩
      | error e =>
        apply iff_of_true
        · rw [dispense_failed hd]
          exact (Int.add_zero _).symm
        · intro _ amount mix hplan
          obtain ⟨t, ht⟩ := dispense_of_plan hplan
          rw [hd] at ht
          cases ht
  · have hc : ∀ payload, c ≠ .dispense payload := fun payload hp => hdispense ⟨payload, hp⟩
    apply iff_of_true (reported_quiet hdefault hc h)
    intro p hp
    exact absurd hp (hc p)

theorem reported_request {s : CdmDeviceService} (hdefault : FromDefault s) (commandCode : String)
    (payload : Option Json) :
    reported (executeRequest s commandCode payload).2.cashUnits =
        reported s.cashUnits + paidOut (executeRequest s commandCode payload).1 ↔
      ∀ p, commandOf commandCode payload = some (.dispense p) → s.injectedError = none →
        CountsDispense s p := by
  unfold executeRequest
  cases hcommand : commandOf commandCode payload with
  | some c =>
    simp only [Option.some.injEq]
    exact reported_executeCommand hdefault (Prod.eta _).symm
  | none =>
    apply iff_of_true
    · simp only
      cases hinjected : s.injectedError with
      | none =>
        rw [checkInjectedError_none hinjected]
        exact (Int.add_zero _).symm
      | some code =>
        rw [checkInjectedError_some hinjected]
        exact (Int.add_zero _).symm
    · intro p hp
      cases hp

theorem reconciled_whole (s : CdmDeviceService) (dispensed : Int) :
    Reconciled ⟨.whole s, dispensed⟩ ↔ reported s.cashUnits = dispensed := by
  show getCashUnitInfo s = _ ↔ _
  simp [getCashUnitInfo_eq]

/-- A refused refill changes nothing, an accepted one has to leave as much missing. -/
theorem reconciled_refill {s : CdmDeviceService} {unitId : String} {unit : CashUnit}
    (hget : s.cashUnits.get unitId = some unit) (newCount : Number) :
    Reconciled ⟨replenishWith s unitId newCount, reported s.cashUnits⟩ ↔
      CountsRefill unit newCount := by
  obtain ⟨hmem, -⟩ := CashUnits.get_spec hget
  by_cases hrange : newCount.lt (.ofInt 0) ∨ (Number.ofInt unit.maximum).lt newCount
  · have hsame : replenishWith s unitId newCount = .whole s := by
      simp only [replenishWith, hget, if_pos hrange]
    rw [hsame, reconciled_whole]
    exact iff_of_true rfl (.inl hrange)
  · have haccepted : CountsRefill unit newCount ↔
        ∃ n : Int, newCount = .ofInt n ∧ missing { unit with count := n } = missing unit :=
      or_iff_right hrange
    rw [haccepted]
    cases hn : newCount.toInt? with
    | none =>
      have huneven : replenishWith s unitId newCount = .uneven s unitId newCount := by
        simp only [replenishWith, hget, if_neg hrange, hn]
      rw [huneven]
      apply iff_of_false id
      rintro ⟨n, rfl, -⟩
      rw [Number.toInt?_ofInt] at hn
      cases hn
    | some n =>
      rw [Number.toInt?_eq_some] at hn
      subst hn
      have hin : ¬ (n < 0 ∨ unit.maximum < n) := by simpa using hrange
      let unit' : CashUnit := { unit with count := n, status := statusOfCount n unit.minimum }
      have hset : (replenishCassette s unitId n).2.cashUnits = s.cashUnits.set unit' := by
        simp only [replenishCassette, hget, if_neg hin]
        rfl
      have hunit : missing unit' = missing { unit with count := n } := rfl
      rw [replenishWith_ofInt, reconciled_whole, hset, reported_set hmem unit' rfl, hunit]
      constructor
      · intro heq
        exact ⟨n, rfl, by omega⟩
      · rintro ⟨m, hm, heq⟩
        rw [Number.ofInt_inj] at hm
        rw [hm]
        omega

theorem reported_other {s s' : CdmDeviceService} {op : CdmOp} (hop : ∀ c, op ≠ .command c)
    (hrep : ∀ unitId n, op ≠ .replenish unitId n) (hstep : step s op = some s') :
    reported s'.cashUnits = reported s.cashUnits := by
  rcases step_status hop hrep hstep with hsame | ⟨unitId, u, status, hget, hset⟩
  · rw [hsame]
  · obtain ⟨hmem, -⟩ := CashUnits.get_spec hget
    have hunit : missing { u with status } = missing u := rfl
    rw [hset, reported_set hmem { u with status } rfl, hunit]
    omega

theorem fromDefault_tillStep {t t' : Till} {call : CdmCall} (h : t.device.fromDefault)
    (hstep : tillStep t call = some t') : t'.device.fromDefault := by
  obtain ⟨d, hd, rfl⟩ := Option.map_eq_some_iff.mp hstep
  exact fromDefault_step h hd

/-- A call keeps the report right exactly if it meets its condition. -/
theorem reconciled_step {t t' : Till} {call : CdmCall} (hdefault : t.device.fromDefault)
    (h : Reconciled t) (hstep : tillStep t call = some t') : Reconciled t' ↔ Counts t call := by
  obtain ⟨d, hd, rfl⟩ := Option.map_eq_some_iff.mp hstep
  obtain ⟨device, dispensed⟩ := t
  cases device with
  | uneven s unitId count => cases hd
  | whole s =>
    rw [reconciled_whole] at h
    subst h
    rcases callStep_cases hd with ⟨commandCode, payload, rfl, rfl⟩ |
      ⟨unitId, newCount, rfl, rfl⟩ | ⟨hrequest, hrefill, op, s', hop, hrep, hs', rfl⟩
    · rw [reconciled_whole]
      exact reported_request hdefault commandCode payload
    · show Reconciled ⟨_, _ + 0⟩ ↔ ∀ unit, _
      rw [Int.add_zero]
      cases hget : s.cashUnits.get unitId with
      | none =>
        have hsame : replenishWith s unitId newCount = .whole s := by
          simp only [replenishWith, hget]
        rw [hsame, reconciled_whole]
        refine iff_of_true rfl ?_
        intro unit hunit
        cases hunit
      | some unit =>
        rw [reconciled_refill hget]
        constructor
        · intro hcounts unit' hunit
          cases hunit
          exact hcounts
        · intro hcounts
          exact hcounts unit rfl
    · have hpaid : paidBy (.whole s) call = 0 ∧ Counts ⟨.whole s, reported s.cashUnits⟩ call := by
        cases call with
        | request commandCode payload => exact absurd rfl (hrequest commandCode payload)
        | replenish unitId newCount => exact absurd rfl (hrefill unitId newCount)
        | _ => exact ⟨rfl, trivial⟩
      rw [reconciled_whole, hpaid.1, Int.add_zero]
      exact iff_of_true (reported_other hop hrep hs') hpaid.2

/-- In the runs of a fresh dispenser the reported total is what has been dispensed, at every
point, if and only if every call counts as it should. -/
theorem reconciled_iff_counts (calls : List CdmCall) :
    Runs.Always tillStep Reconciled .start calls ↔ Runs.Along tillStep Counts .start calls := by
  have hstart : Reconciled .start := by
    apply (reconciled_whole _ _).mpr
    decide
  apply Runs.always_iff_along (fun t => t.device.fromDefault) _ _ fromDefault_new hstart
  · intro t call t' hdefault hstep
    exact fromDefault_tillStep hdefault hstep
  · intro t call t' hdefault h hstep
    exact reconciled_step hdefault h hstep

/-- A hundred notes taken out by hand are reported as ten million dispensed; a cassette filled
beyond its first count gives notes away unseen. -/
theorem report_off_after_refill :
    ¬ Runs.Always tillStep Reconciled .start [.replenish "CASS1" (.ofInt 400)] ∧
      ¬ Runs.Always tillStep Reconciled .start
        [.replenish "CASS1" (.ofInt 600), customRequest 100000 [("100000", 1)]] := by
  constructor
  · intro h
    have hend := (reconciled_whole _ _).mp (h.2 _ rfl)
    revert hend
    decide +kernel
  · intro h
    have hend := (reconciled_whole _ _).mp ((h.2 _ rfl).2 _ rfl)
    revert hend
    decide +kernel

end AtmXfs.Cdm
