import AtmXfs.Cdm.Cassettes
import AtmXfs.Lib.Runs

namespace AtmXfs.Cdm

open Js

def takenAmount : CdmEvent → Int
  | .notesTaken amount => amount
  | _ => 0

/-- The sum of the amounts announced as taken. -/
def taken (s : CdmDeviceService) : Int := (s.events.map takenAmount).sum

/-- The amount of the bundle in the slot. -/
def heldAmount (s : CdmDeviceService) : Int := (s.presentedCash.map PresentedCash.amount).getD 0

def rejectCount (s : CdmDeviceService) : Option Int :=
  (s.cashUnits.get "REJECT").map CashUnit.count

def paidOut : Except CdmError CdmResult → Int
  | .ok (.dispensed r) => r.totalDispensed
  | _ => 0

/-- The bundle a successful retract or reject has pulled back. -/
def pulledBack (s : CdmDeviceService) :
    CdmCommand → Except CdmError CdmResult → Option PresentedCash
  | .retract, .ok _ => s.presentedCash
  | .reject, .ok _ => s.presentedCash
  | _, _ => none

/-- The device and the sums of what it has paid out and pulled back. -/
structure Audit where
  device : CdmDeviceService
  dispensed : Int
  retracted : Int
  retractedNotes : Int

def Audit.start : Audit := ⟨.new initializeCassettes, 0, 0, 0⟩

def Audit.record (a : Audit) (c : CdmCommand) : Audit where
  device := (executeCommand a.device c).2
  dispensed := a.dispensed + paidOut (executeCommand a.device c).1
  retracted := a.retracted +
    ((pulledBack a.device c (executeCommand a.device c).1).map PresentedCash.amount).getD 0
  retractedNotes := a.retractedNotes +
    ((pulledBack a.device c (executeCommand a.device c).1).map fun b => totalNotes b.notes).getD 0

/-- Steps without a reset of the device or a refill by the operator. -/
def auditStep (a : Audit) : CdmOp → Option Audit
  | .command .reset => none
  | .command c => some (a.record c)
  | .replenish _ _ => none
  | op => (step a.device op).map fun s => { a with device := s }

/-- What was dispensed has been taken, was pulled back, or is in the slot; what was pulled back
is in the reject unit. -/
structure Balanced (a : Audit) : Prop where
  amounts : a.dispensed = taken a.device + a.retracted + heldAmount a.device
  notes : rejectCount a.device = some a.retractedNotes

/-- The condition on the steps of a run: a dispense succeeds only while the slot is empty. -/
def SlotFree (a : Audit) : CdmOp → Prop
  | .command c => ∀ r, (executeCommand a.device c).1 = .ok (.dispensed r) →
      a.device.presentedCash = none
  | _ => True

def HoldsPositive (s : CdmDeviceService) : Prop :=
  ∀ cash, s.presentedCash = some cash → 0 < cash.amount

theorem taken_append {s s' : CdmDeviceService} {es : List CdmEvent}
    (h : s'.events = s.events ++ es) (hes : ∀ e ∈ es, takenAmount e = 0) : taken s' = taken s := by
  have hzero : (es.map takenAmount).sum = 0 := by
    apply List.sum_eq_zero
    intro n hn
    obtain ⟨e, he, rfl⟩ := List.mem_map.mp hn
    exact hes e he
  rw [taken, h, List.map_append, List.sum_append, hzero, add_zero, taken]

theorem get_of_mem {t : CashUnits} {u : CashUnit} {unitId : String} (hu : u ∈ t.values)
    (hid : u.unitId = unitId) : t.get unitId = some u := by
  have hsome : (t.get unitId).isSome := by
    rw [CashUnits.get, List.find?_isSome]
    exact ⟨u, hu, by simpa using hid⟩
  obtain ⟨v, hv⟩ := Option.isSome_iff_exists.mp hsome
  obtain ⟨hmem, hvid⟩ := CashUnits.get_spec hv
  rw [hv, eq_of_unitId t hmem hu (hvid.trans hid.symm)]

theorem rejectCount_putUnit {s : CdmDeviceService} {u : CashUnit} (hu : u ∈ s.cashUnits.values)
    (u' : CashUnit) (hid : u'.unitId = u.unitId) :
    rejectCount (s.putUnit u') = if u.unitId = "REJECT" then some u'.count else rejectCount s := by
  have hget : (s.cashUnits.set u').get "REJECT" =
      (s.cashUnits.get "REJECT").map fun v => if v.unitId = u.unitId then u' else v := by
    rw [CashUnits.get, CashUnits.set_values hu hid, List.find?_map]
    congr 1
    apply List.find?_congr
    intro v _
    simp only [Function.comp_apply]
    split_ifs with h
    · rw [hid, h]
    · rfl
  rw [rejectCount, CdmDeviceService.putUnit, hget]
  split_ifs with hrej
  · simp [get_of_mem hu hrej]
  · rw [rejectCount, Option.map_map]
    cases hget : s.cashUnits.get "REJECT" with
    | none => rfl
    | some v =>
      have hne : v.unitId ≠ u.unitId := by
        rw [(CashUnits.get_spec hget).2]
        exact Ne.symm hrej
      simp [hne]

theorem rejectCount_dispense {s s' : CdmDeviceService} {payload : CdmDispensePayload}
    {r : CdmDispenseResult} (h : dispense s payload = (.ok r, s')) :
    rejectCount s' = rejectCount s := by
  unfold rejectCount CashUnits.get
  rw [(dispense_values h).2, List.find?_map, Option.map_map]
  have hsame : ∀ v ∈ s.cashUnits.values,
      ((fun u : CashUnit => decide (u.unitId = "REJECT")) ∘ fun u =>
        (drawnFrom s.cashUnits (objectEntries r.mix) u.unitId).foldl drawNotes u) v =
      decide (v.unitId = "REJECT") := by
    intro v _
    simp only [Function.comp_apply, unitId_of_shape (foldl_drawNotes_shape v _)]
  rw [List.find?_congr hsame]
  cases hf : s.cashUnits.values.find? fun u => decide (u.unitId = "REJECT") with
  | none => rfl
  | some v =>
    have hid : v.unitId = "REJECT" := by simpa using List.find?_some hf
    simp [hid, drawnFrom_reject]

theorem takenAmount_of_threshold {es : List CdmEvent} (h : es.all isThreshold = true) :
    ∀ e ∈ es, takenAmount e = 0 := by
  intro e he
  have hth := List.all_eq_true.mp h e he
  cases e with
  | cashUnitThreshold u => rfl
  | _ => simp [isThreshold] at hth

/-- A dispense that returns puts its bundle in the slot and announces nothing as taken. -/
theorem dispense_slot {s s' : CdmDeviceService} {payload : CdmDispensePayload}
    {r : CdmDispenseResult} (h : dispense s payload = (.ok r, s')) :
    0 < r.totalDispensed ∧ s'.presentedCash = some ⟨r.totalDispensed, r.mix⟩ ∧
      taken s' = taken s := by
  rcases dispense_cases h with ⟨e, -, he, -⟩ | ⟨amount, mix, t, hplan, ht, hr, rfl⟩
  · cases he
  · cases hr
    obtain ⟨-, -, -, es, hes, hall⟩ := deduct_frame ht
    have htaken := taken_append hes (takenAmount_of_threshold hall)
    refine ⟨(planDispense_spec hplan).2.1, by simp, ?_⟩
    rw [← htaken]
    simp only [holdBundle]
    split
    · exact taken_append rfl (by simp [takenAmount])
    · rfl

/-- What a command can do to the bundles: it puts one into the slot, pulls one back out of it,
or leaves them alone. -/
inductive SlotChange (s : CdmDeviceService) (c : CdmCommand) (r : Except CdmError CdmResult)
    (s' : CdmDeviceService) : Prop
  | filled (d : CdmDispenseResult) : r = .ok (.dispensed d) → pulledBack s c r = none →
    0 < d.totalDispensed → s'.presentedCash = some ⟨d.totalDispensed, d.mix⟩ →
    taken s' = taken s → rejectCount s' = rejectCount s → SlotChange s c r s'
  | emptied (cash : PresentedCash) : s.presentedCash = some cash →
    (∀ d, r ≠ .ok (.dispensed d)) → pulledBack s c r = some cash → s'.presentedCash = none →
    taken s' = taken s → rejectCount s' = (rejectCount s).map (· + totalNotes cash.notes) →
    SlotChange s c r s'
  | kept : (∀ d, r ≠ .ok (.dispensed d)) → pulledBack s c r = none →
    s'.presentedCash = s.presentedCash → taken s' = taken s → rejectCount s' = rejectCount s →
    SlotChange s c r s'

theorem dispense_slotChange {s s' : CdmDeviceService} {payload : CdmDispensePayload}
    {r : Except CdmError CdmDispenseResult} (h : dispense s payload = (r, s')) :
    SlotChange s (.dispense payload) (r.map .dispensed) s' := by
  cases r with
  | ok d =>
    obtain ⟨hpos, hslot, htaken⟩ := dispense_slot h
    exact .filled d rfl rfl hpos hslot htaken (rejectCount_dispense h)
  | error e =>
    rcases dispense_cases h with ⟨_, -, -, rfl⟩ | ⟨_, _, _, -, -, hr, -⟩
    · exact .kept (by simp [Except.map]) rfl rfl rfl rfl
    · cases hr

theorem present_slotChange {s s' : CdmDeviceService} {r : Except CdmError CdmResult}
    (h : present s = (r, s')) : SlotChange s .present r s' := by
  unfold present at h
  split at h
  · cases h
    exact .kept (by simp) rfl rfl rfl rfl
  · cases h
    exact .kept (by simp) rfl rfl (taken_append rfl (by simp [takenAmount])) rfl

theorem retract_slotChange {s s' : CdmDeviceService} {r : Except CdmError CdmResult}
    {c : CdmCommand} (hc : c = .retract ∨ c = .reject) (h : retract s = (r, s')) :
    SlotChange s c r s' := by
  have hpull (res : CdmResult) : pulledBack s c (.ok res) = s.presentedCash := by
    rcases hc with rfl | rfl <;> rfl
  have hnone (e : CdmError) : pulledBack s c (.error e) = none := by
    rcases hc with rfl | rfl <;> rfl
  unfold retract at h
  split at h
  · cases h
    exact .kept (by simp) (hnone _) rfl rfl rfl
  · next cash hcash =>
    split at h
    · next hreject =>
      cases h
      refine .emptied cash hcash (by simp) ((hpull _).trans hcash) rfl rfl ?_
      simp [rejectCount, hreject]
    · next reject hreject =>
      cases h
      obtain ⟨hmem, hid⟩ := CashUnits.get_spec hreject
      refine .emptied cash hcash (by simp) ((hpull _).trans hcash) rfl rfl ?_
      have hset := rejectCount_putUnit hmem { reject with
        count := reject.count + totalNotes cash.notes } rfl
      have hbefore : rejectCount s = some reject.count := by
        rw [rejectCount, hreject]
        rfl
      rw [if_pos hid] at hset
      rw [hbefore]
      exact hset

theorem executeCommand_slotChange {s s' : CdmDeviceService} {c : CdmCommand}
    {r : Except CdmError CdmResult} (hc : c ≠ .reset) (h : executeCommand s c = (r, s')) :
    SlotChange s c r s' := by
  cases executeCommand_executed h with
  | reset => exact absurd rfl hc
  | injected _ _ =>
    refine .kept (by simp) ?_ rfl rfl rfl
    cases c <;> rfl
  | dispense _ hd hr =>
    rw [hr]
    exact dispense_slotChange hd
  | present _ hp => exact present_slotChange hp
  | retract _ hretract hr => exact retract_slotChange hretract hr
  | answered _ hanswer =>
    refine .kept hanswer.not_dispensed ?_ rfl rfl rfl
    cases hanswer <;> rfl

/-- What a step that is no command does to the bundles: an expired timer announces the one in
the slot as taken. -/
theorem step_slot {s s' : CdmDeviceService} {op : CdmOp} (hop : ∀ c, op ≠ .command c)
    (hrep : ∀ unitId n, op ≠ .replenish unitId n) (h : step s op = some s') :
    taken s' + heldAmount s' = taken s + heldAmount s ∧ rejectCount s' = rejectCount s ∧
      (s'.presentedCash = s.presentedCash ∨ s'.presentedCash = none) := by
  have hput : ∀ u ∈ s.cashUnits.values, ∀ u' : CashUnit, u'.unitId = u.unitId →
      u'.count = u.count → rejectCount (s.putUnit u') = rejectCount s := by
    intro u hu u' hid hcount
    rw [rejectCount_putUnit hu u' hid]
    split_ifs with hrej
    · rw [rejectCount, get_of_mem hu hrej, hcount]
      rfl
    · rfl
  cases op with
  | command c => exact absurd rfl (hop c)
  | replenish unitId n => exact absurd rfl (hrep unitId n)
  | takeTimer =>
    simp only [step] at h
    split_ifs at h
    cases h
    unfold takeTimerExpired
    split
    · next cash hcash =>
      refine ⟨?_, rfl, .inr rfl⟩
      simp [taken, heldAmount, hcash, CdmDeviceService.emit, takenAmount]
    · exact ⟨rfl, rfl, .inl rfl⟩
  | jam unitId =>
    cases h
    unfold simulateJam
    split
    · exact ⟨rfl, rfl, .inl rfl⟩
    · next u hu =>
      have htaken : taken ((s.putUnit { u with status := .jammed }).emit (.jam unitId)) = taken s :=
        taken_append rfl (by simp [takenAmount])
      refine ⟨?_, hput u (CashUnits.get_spec hu).1 _ rfl rfl, .inl rfl⟩
      rw [htaken]
      rfl
  | clearJam unitId =>
    cases h
    unfold clearJam
    split
    · exact ⟨rfl, rfl, .inl rfl⟩
    · next u hu => exact ⟨rfl, hput u (CashUnits.get_spec hu).1 _ rfl rfl, .inl rfl⟩
  | injectError code =>
    cases h
    exact ⟨rfl, rfl, .inl rfl⟩
  | clearError =>
    cases h
    exact ⟨rfl, rfl, .inl rfl⟩

/-- The two kinds of step of an audited run. -/
theorem auditStep_cases {a a' : Audit} {op : CdmOp} (h : auditStep a op = some a') :
    (∃ c, op = .command c ∧ c ≠ .reset ∧ a' = a.record c) ∨
    ((∀ c, op ≠ .command c) ∧ (∀ unitId n, op ≠ .replenish unitId n) ∧
      ∃ s, step a.device op = some s ∧ a' = { a with device := s }) := by
  unfold auditStep at h
  split at h
  · cases h
  · next c hc =>
    cases h
    exact .inl ⟨c, rfl, hc, rfl⟩
  · cases h
  · next hreset hcmd hrep =>
    obtain ⟨s, hs, rfl⟩ := Option.map_eq_some_iff.mp h
    exact .inr ⟨hcmd, fun unitId n => hrep unitId n, s, hs, rfl⟩

theorem heldAmount_none {s : CdmDeviceService} (h : s.presentedCash = none) :
    heldAmount s = 0 := by simp [heldAmount, h]

theorem heldAmount_some {s : CdmDeviceService} {cash : PresentedCash}
    (h : s.presentedCash = some cash) : heldAmount s = cash.amount := by simp [heldAmount, h]

theorem auditStep_holdsPositive {a a' : Audit} {op : CdmOp} (ha : HoldsPositive a.device)
    (h : auditStep a op = some a') : HoldsPositive a'.device := by
  intro cash hcash
  rcases auditStep_cases h with ⟨c, -, hc, rfl⟩ | ⟨hop, hrep, s, hs, rfl⟩
  · cases executeCommand_slotChange hc (Prod.eta (executeCommand a.device c)).symm with
    | filled d _ _ hpos hslot _ _ =>
      rw [Audit.record, hslot, Option.some.injEq] at hcash
      rw [← hcash]
      exact hpos
    | emptied _ _ _ _ hslot _ _ =>
      rw [Audit.record, hslot] at hcash
      cases hcash
    | kept _ _ hslot _ _ => exact ha cash (hslot.symm.trans hcash)
  · obtain ⟨-, -, hslot | hslot⟩ := step_slot hop hrep hs
    · exact ha cash (hslot.symm.trans hcash)
    · rw [hslot] at hcash
      cases hcash

theorem paidOut_quiet {r : Except CdmError CdmResult} (h : ∀ d, r ≠ .ok (.dispensed d)) :
    paidOut r = 0 := by
  cases r with
  | error e => rfl
  | ok res =>
    cases res with
    | dispensed d => exact absurd rfl (h d)
    | _ => rfl

/-- A step keeps the balance exactly when it does not put a bundle over another one. -/
theorem auditStep_balanced {a a' : Audit} {op : CdmOp} (hpos : HoldsPositive a.device)
    (hb : Balanced a) (h : auditStep a op = some a') : Balanced a' ↔ SlotFree a op := by
  obtain ⟨hamounts, hnotes⟩ := hb
  rcases auditStep_cases h with ⟨c, rfl, hc, rfl⟩ | ⟨hop, hrep, s, hs, rfl⟩
  · cases executeCommand_slotChange hc (Prod.eta (executeCommand a.device c)).symm with
    | filled d hr hpull _ hslot htaken hrej =>
      have hheld : heldAmount (executeCommand a.device c).2 = d.totalDispensed :=
        heldAmount_some hslot
      have hpaid : paidOut (executeCommand a.device c).1 = d.totalDispensed := by
        rw [hr]
        rfl
      have hbal : Balanced (a.record c) ↔ heldAmount a.device = 0 := by
        constructor
        · intro hb
          have hsum := hb.amounts
          simp only [Audit.record, hpaid, hpull, htaken, hheld, Option.map_none,
            Option.getD_none] at hsum
          omega
        · intro h0
          refine ⟨?_, by simp [Audit.record, hpull, hrej, hnotes]⟩
          simp only [Audit.record, hpaid, hpull, htaken, hheld, Option.map_none, Option.getD_none]
          omega
      rw [hbal]
      constructor
      · intro h0 _ _
        cases hcash : a.device.presentedCash with
        | none => rfl
        | some cash =>
          have hamount := hpos cash hcash
          rw [heldAmount_some hcash] at h0
          omega
      · intro hfree
        exact heldAmount_none (hfree d hr)
    | emptied cash hcash hr hpull hslot htaken hrej =>
      have hpaid := paidOut_quiet hr
      have hheld := heldAmount_none hslot
      rw [heldAmount_some hcash] at hamounts
      refine iff_of_true ⟨?_, by simp [Audit.record, hpull, hrej, hnotes]⟩
        fun d hd => absurd hd (hr d)
      simp only [Audit.record, hpaid, hpull, htaken, hheld, Option.map_some, Option.getD_some]
      omega
    | kept hr hpull hslot htaken hrej =>
      have hpaid := paidOut_quiet hr
      have hheld : heldAmount (executeCommand a.device c).2 = heldAmount a.device := by
        rw [heldAmount, hslot, heldAmount]
      refine iff_of_true ⟨?_, by simp [Audit.record, hpull, hrej, hnotes]⟩
        fun d hd => absurd hd (hr d)
      simp only [Audit.record, hpaid, hpull, htaken, hheld, Option.map_none, Option.getD_none]
      omega
  · obtain ⟨hsum, hrej, -⟩ := step_slot hop hrep hs
    refine iff_of_true ⟨?_, ?_⟩ ?_
    · simp only
      omega
    · simp only [hrej, hnotes]
    · cases op with
      | command c => exact absurd rfl (hop c)
      | _ => trivial

/-- In the runs of a fresh dispenser the bundles balance at every point if and only if every
dispense that succeeds finds the slot empty. -/
theorem bundles_balanced_iff (ops : List CdmOp) :
    Runs.Always auditStep Balanced Audit.start ops ↔
      Runs.Along auditStep SlotFree Audit.start ops := by
  have hinv : ∀ a op a', HoldsPositive a.device → auditStep a op = some a' →
      HoldsPositive a'.device := fun a op a' => auditStep_holdsPositive
  have hstep : ∀ a op a', HoldsPositive a.device → Balanced a → auditStep a op = some a' →
      (Balanced a' ↔ SlotFree a op) := fun a op a' => auditStep_balanced
  apply Runs.always_iff_along _ hinv hstep
  · intro cash hcash
    cases hcash
  · exact ⟨rfl, rfl⟩

/-- A second dispense takes the place of the first bundle, which is then nowhere. -/
theorem second_dispense_loses_bundle :
    ¬ Runs.Always auditStep Balanced Audit.start
      [.command (.dispense ⟨.ofInt 100000, .minNotes, none, false⟩),
       .command (.dispense ⟨.ofInt 100000, .minNotes, none, false⟩)] := by
  intro h
  have hlast := (h.2 _ rfl).2 _ rfl
  have hamounts := hlast.amounts
  revert hamounts
  decide +kernel

end AtmXfs.Cdm
