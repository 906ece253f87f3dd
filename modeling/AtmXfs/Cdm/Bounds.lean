import AtmXfs.Cdm.Bundles
import AtmXfs.Cdm.Request
import AtmXfs.Cdm.Spendable

namespace AtmXfs.Cdm

open Js

/-- The dispenser while every count is an integer, and the cassette that was refilled to a number
that is none; the run is not followed beyond that. -/
inductive Dispenser where
  | whole (s : CdmDeviceService)
  | uneven (s : CdmDeviceService) (unitId : String) (count : Number)

/-- What is done to the dispenser, with any arguments. -/
inductive CdmCall where
  | request (commandCode : String) (payload : Option Json)
  | takeTimer
  | replenish (unitId : String) (newCount : Number)
  | jam (unitId : String)
  | clearJam (unitId : String)
  | injectError (code : Int)
  | clearError

/-- `replenishCassette` of any number; a comparison with `NaN` refuses nothing. -/
def replenishWith (s : CdmDeviceService) (unitId : String) (newCount : Number) : Dispenser :=
  match s.cashUnits.get unitId with
  | none => .whole s
  | some unit =>
    if newCount.lt (.ofInt 0) ∨ (Number.ofInt unit.maximum).lt newCount then .whole s
    else
      match newCount.toInt? with
      | some n => .whole (replenishCassette s unitId n).2
      | none => .uneven s unitId newCount

def callStep : Dispenser → CdmCall → Option Dispenser
  | .uneven _ _ _, _ => none
  | .whole s, .request commandCode payload =>
    some (.whole (executeRequest s commandCode payload).2)
  | .whole s, .takeTimer => (step s .takeTimer).map .whole
  | .whole s, .replenish unitId newCount => some (replenishWith s unitId newCount)
  | .whole s, .jam unitId => (step s (.jam unitId)).map .whole
  | .whole s, .clearJam unitId => (step s (.clearJam unitId)).map .whole
  | .whole s, .injectError code => (step s (.injectError code)).map .whole
  | .whole s, .clearError => (step s .clearError).map .whole

/-- Every count is an integer between zero and the maximum of its cassette. -/
def Bounded (s : CdmDeviceService) : Prop :=
  ∀ u ∈ s.cashUnits.values, 0 ≤ u.count ∧ u.count ≤ u.maximum

instance : DecidablePred Bounded := fun s =>
  inferInstanceAs (Decidable (∀ u ∈ s.cashUnits.values, 0 ≤ u.count ∧ u.count ≤ u.maximum))

def InBounds : Dispenser → Prop
  | .whole s => Bounded s
  | .uneven _ _ _ => False

instance : DecidablePred InBounds
  | .whole s => inferInstanceAs (Decidable (Bounded s))
  | .uneven _ _ _ => inferInstanceAs (Decidable False)

/-- A request that passes its checks does not ask for more notes of a denomination, under all its
names, than the cassette that pays it holds. -/
def KeepsDispense (s : CdmDeviceService) (payload : CdmDispensePayload) : Prop :=
  (∃ amount mix, planDispense s payload = .ok (amount, mix)) →
    match payload.mixType, payload.customMix with
    | .custom, some mix => ∀ denom u, findSpendableUnitByDenom s.cashUnits denom = some u →
        requestedNotes mix denom ≤ u.count
    | _, _ => True

/-- The reject unit has room for the bundle in the slot. -/
def KeepsRetract (s : CdmDeviceService) : Prop :=
  ∀ cash reject, s.presentedCash = some cash → s.cashUnits.get "REJECT" = some reject →
    reject.count + totalNotes cash.notes ≤ reject.maximum

def KeepsCommand (s : CdmDeviceService) : CdmCommand → Prop
  | .dispense payload => s.injectedError = none → KeepsDispense s payload
  | .retract | .reject => s.injectedError = none → KeepsRetract s
  | _ => True

/-- The condition on a call, in the state before it. -/
def Keeps : Dispenser → CdmCall → Prop
  | .whole s, .request commandCode payload =>
    ∀ c, commandOf commandCode payload = some c → KeepsCommand s c
  | .whole s, .replenish unitId newCount => ∀ unit, s.cashUnits.get unitId = some unit →
      (newCount.lt (.ofInt 0) ∨ (Number.ofInt unit.maximum).lt newCount) ∨
        newCount.toInt?.isSome
  | _, _ => True

/-- The cassettes are the default ones, and the bundle in the slot is of no negative number of
notes. -/
structure FromDefault (s : CdmDeviceService) : Prop where
  shapes : s.cashUnits.values.map shape = initializeCassettes.values.map shape
  slot : ∀ cash, s.presentedCash = some cash → 0 ≤ totalNotes cash.notes

/-- For an integer it is the `replenishCassette` of the other runs. -/
theorem replenishWith_ofInt (s : CdmDeviceService) (unitId : String) (n : Int) :
    replenishWith s unitId (.ofInt n) = .whole (replenishCassette s unitId n).2 := by
  unfold replenishWith
  cases hget : s.cashUnits.get unitId with
  | none => simp [replenishCassette, hget]
  | some unit =>
    simp only [Number.lt_ofInt, Number.toInt?_ofInt, decide_eq_true_eq]
    split_ifs with hrange
    · simp [replenishCassette, hget, hrange]
    · rfl

theorem FromDefault.denomination_pos {s : CdmDeviceService} (h : FromDefault s) {u : CashUnit}
    (hu : u ∈ s.cashUnits.values) (hid : u.unitId ≠ "REJECT") : 0 < u.denomination := by
  have hshape : shape u ∈ initializeCassettes.values.map shape := by
    rw [← h.shapes]
    exact List.mem_map_of_mem hu
  obtain ⟨v, hv, hsame⟩ := List.mem_map.mp hshape
  rw [← denomination_of_shape hsame]
  rw [← unitId_of_shape hsame] at hid
  have hdefault : ∀ v ∈ initializeCassettes.values, v.unitId ≠ "REJECT" → 0 < v.denomination := by
    decide
  exact hdefault v hv hid

theorem FromDefault.stocked {s : CdmDeviceService} (h : FromDefault s) (hb : Bounded s) :
    Stocked s.cashUnits.values := fun u hu hid => ⟨h.denomination_pos hu hid, (hb u hu).1⟩

theorem Bounded.of_units {s s' : CdmDeviceService} (h : Bounded s)
    (hunits : s'.cashUnits = s.cashUnits) : Bounded s' := by
  unfold Bounded
  rw [hunits]
  exact h

/-- Replacing one cassette keeps the bounds exactly if the new one is within its own. -/
theorem bounded_set {s s' : CdmDeviceService} (h : Bounded s) {u u' : CashUnit}
    (hu : u ∈ s.cashUnits.values) (hset : s'.cashUnits = s.cashUnits.set u')
    (hid : u'.unitId = u.unitId) : Bounded s' ↔ 0 ≤ u'.count ∧ u'.count ≤ u'.maximum := by
  unfold Bounded
  rw [hset]
  constructor
  · intro hall
    apply hall
    rw [CashUnits.set_values hu hid]
    refine List.mem_map.mpr ⟨u, hu, ?_⟩
    rw [if_pos rfl]
  · intro hnew v hv
    rcases CashUnits.mem_set hu hid hv with rfl | ⟨hold, -⟩
    · exact hnew
    · exact h v hold

/-- A dispense never fills a cassette, so that only its lower bound is at stake. -/
theorem bounded_of_nonneg {s s' : CdmDeviceService} (h : Bounded s)
    {payload : CdmDispensePayload} {r : Except CdmError CdmDispenseResult}
    (hd : dispense s payload = (r, s')) (hcounts : ∀ u ∈ s'.cashUnits.values, 0 ≤ u.count) :
    Bounded s' := by
  obtain ⟨drawn, hvalues, hdrawn⟩ := dispense_drawn hd
  intro v hv
  refine ⟨hcounts v hv, ?_⟩
  rw [hvalues] at hv
  obtain ⟨u, hu, rfl⟩ := List.mem_map.mp hv
  rw [maximum_of_shape (foldl_drawNotes_shape u (drawn u)), foldl_drawNotes_count]
  have hsum := (hdrawn u hu).1
  have hmax := (h u hu).2
  omega

theorem bounded_dispense {s s' : CdmDeviceService} (hdefault : FromDefault s) (h : Bounded s)
    {payload : CdmDispensePayload} {r : Except CdmError CdmDispenseResult}
    (hd : dispense s payload = (r, s')) : Bounded s' ↔ KeepsDispense s payload := by
  have hstocked := hdefault.stocked h
  rcases dispense_cases hd with ⟨e, hplan, -, rfl⟩ | ⟨amount, mix, t, hplan, -, hr, -⟩
  · apply iff_of_true h
    intro haccepted
    obtain ⟨amount, mix, hok⟩ := haccepted
    rw [hplan] at hok
    cases hok
  · rw [hr] at hd
    obtain ⟨-, -, hmix, hpre⟩ := planDispense_spec hplan
    have hreject : ∀ u ∈ s.cashUnits.values, u.unitId = "REJECT" → 0 ≤ u.count :=
      fun u hu _ => (h u hu).1
    have hlower : Bounded s' ↔ ∀ denom u, findSpendableUnitByDenom s.cashUnits denom = some u →
        notesFor mix denom ≤ u.count := by
      have hcounts := counts_iff hstocked hd
      constructor
      · intro hb
        exact (hcounts.mp fun u hu => (hb u hu).1).2
      · intro hnotes
        exact bounded_of_nonneg h hd (hcounts.mpr ⟨hreject, hnotes⟩)
    rw [hlower, KeepsDispense]
    have haccepted : ∃ amount mix, planDispense s payload = .ok (amount, mix) := ⟨_, _, hplan⟩
    simp only [haccepted, true_imp_iff]
    have hminNotes : chooseMix s payload amount = calculateMinNotesMix s.cashUnits amount →
        ∀ denom u, findSpendableUnitByDenom s.cashUnits denom = some u →
          notesFor mix denom ≤ u.count := by
      intro hchosen
      rw [hchosen] at hmix
      exact notesFor_minNotes hstocked hmix hpre
    cases hmode : payload.mixType with
    | minNotes => exact iff_of_true (hminNotes (by simp only [chooseMix, hmode])) trivial
    | maxNotes => exact iff_of_true (hminNotes (by simp only [chooseMix, hmode])) trivial
    | custom =>
      cases hcustom : payload.customMix with
      | none => exact iff_of_true (hminNotes (by simp only [chooseMix, hmode, hcustom])) trivial
      | some custom =>
        have hchecked : validateCustomMix amount custom = .ok mix := by
          simpa only [chooseMix, hmode, hcustom] using hmix
        simp only [notesFor_custom hchecked]

theorem bounded_retract {s s' : CdmDeviceService} (hdefault : FromDefault s) (h : Bounded s)
    {r : Except CdmError CdmResult} (hr : retract s = (r, s')) : Bounded s' ↔ KeepsRetract s := by
  cases hcash : s.presentedCash with
  | none =>
    have hsame : s' = s := by
      simp only [retract, hcash] at hr
      cases hr
      rfl
    rw [hsame]
    apply iff_of_true h
    intro cash reject hsome
    rw [hcash] at hsome
    cases hsome
  | some cash =>
    cases hreject : s.cashUnits.get "REJECT" with
    | none =>
      simp only [retract, hcash, hreject] at hr
      cases hr
      apply iff_of_true (h.of_units rfl)
      intro cash' reject _ hsome
      rw [hreject] at hsome
      cases hsome
    | some reject =>
      obtain ⟨hmem, -⟩ := CashUnits.get_spec hreject
      have hunits : s'.cashUnits = s.cashUnits.set
          { reject with count := reject.count + totalNotes cash.notes } := by
        simp only [retract, hcash, hreject] at hr
        cases hr
        rfl
      rw [bounded_set h hmem hunits rfl]
      have hslot := hdefault.slot cash hcash
      have hheld := (h reject hmem).1
      constructor
      · intro hnew cash' reject' hcash' hreject'
        rw [hcash, Option.some.injEq] at hcash'
        rw [hreject, Option.some.injEq] at hreject'
        rw [← hcash', ← hreject']
        exact hnew.2
      · intro hroom
        exact ⟨Int.add_nonneg hheld hslot, hroom cash reject hcash hreject⟩

/-- What a command does to the bounds. -/
theorem bounded_executeCommand {s s' : CdmDeviceService} (hdefault : FromDefault s)
    (h : Bounded s) {c : CdmCommand} {r : Except CdmError CdmResult}
    (hr : executeCommand s c = (r, s')) : Bounded s' ↔ KeepsCommand s c := by
  cases executeCommand_executed hr with
  | reset => exact iff_of_true (h.of_units rfl) trivial
  | injected _ hinjected =>
    apply iff_of_true (h.of_units rfl)
    cases c with
    | dispense payload => exact fun hnone => absurd (hinjected.symm.trans hnone) nofun
    | retract => exact fun hnone => absurd (hinjected.symm.trans hnone) nofun
    | reject => exact fun hnone => absurd (hinjected.symm.trans hnone) nofun
    | _ => trivial
  | dispense hinjected hd _ =>
    rw [bounded_dispense hdefault h hd, KeepsCommand]
    simp only [hinjected, true_imp_iff]
  | present _ hp => exact iff_of_true (h.of_units (present_units hp)) trivial
  | retract hinjected hc hretract =>
    rw [bounded_retract hdefault h hretract]
    rcases hc with rfl | rfl
    · simp only [KeepsCommand, hinjected, true_imp_iff]
    · simp only [KeepsCommand, hinjected, true_imp_iff]
  | answered _ hanswer =>
    apply iff_of_true h
    cases hanswer <;> trivial

theorem FromDefault.command {s s' : CdmDeviceService} (h : FromDefault s) {c : CdmCommand}
    {r : Except CdmError CdmResult} (hr : executeCommand s c = (r, s')) : FromDefault s' := by
  have hstep : step s (.command c) = some s' := by
    show some (executeCommand s c).2 = some s'
    rw [hr]
  refine ⟨(step_shape hstep).trans h.shapes, ?_⟩
  intro cash hcash
  by_cases hreset : c = .reset
  · rw [hreset] at hr
    cases hr
    cases hcash
  · cases executeCommand_slotChange hreset hr with
    | filled d hanswer _ _ hslot =>
      rw [hanswer] at hr
      obtain ⟨payload, -, hd⟩ := dispensed_cases hr
      obtain ⟨-, -, hmix, -⟩ := planDispense_spec (dispense_values hd).1
      rw [hslot] at hcash
      cases hcash
      apply List.sum_nonneg
      intro n hn
      obtain ⟨e, he, rfl⟩ := List.mem_map.mp hn
      exact chooseMix_nonneg hmix e he
    | emptied _ _ _ _ hslot =>
      rw [hslot] at hcash
      cases hcash
    | kept _ _ hslot =>
      rw [hslot] at hcash
      exact h.slot cash hcash

/-- Every other step keeps the bundle or drops it. -/
theorem FromDefault.other {s s' : CdmDeviceService} (h : FromDefault s) {op : CdmOp}
    (hop : ∀ c, op ≠ .command c) (hrep : ∀ unitId n, op ≠ .replenish unitId n)
    (hstep : step s op = some s') : FromDefault s' := by
  refine ⟨(step_shape hstep).trans h.shapes, ?_⟩
  intro cash hcash
  obtain ⟨-, -, hkept | hdropped⟩ := step_slot hop hrep hstep
  · rw [hkept] at hcash
    exact h.slot cash hcash
  · rw [hdropped] at hcash
    cases hcash

theorem FromDefault.replenish {s : CdmDeviceService} (h : FromDefault s) (unitId : String)
    (n : Int) : FromDefault (replenishCassette s unitId n).2 := by
  have hstep : step s (.replenish unitId n) = some (replenishCassette s unitId n).2 := rfl
  refine ⟨(step_shape hstep).trans h.shapes, ?_⟩
  have hslot : (replenishCassette s unitId n).2.presentedCash = s.presentedCash := by
    unfold replenishCassette
    split
    · rfl
    · split_ifs <;> rfl
  rw [hslot]
  exact h.slot

/-- What holds of the dispenser whatever its counts are. -/
def Dispenser.fromDefault : Dispenser → Prop
  | .whole s => FromDefault s
  | .uneven _ _ _ => True

theorem fromDefault_request {s : CdmDeviceService} (h : FromDefault s) (commandCode : String)
    (payload : Option Json) : FromDefault (executeRequest s commandCode payload).2 := by
  unfold executeRequest
  split
  · exact h.command (Prod.eta _).symm
  · rcases consumed_of_throw s .typeError with hsame | ⟨-, hcleared⟩
    · rw [hsame]
      exact h
    · rw [hcleared]
      exact ⟨h.shapes, h.slot⟩

theorem fromDefault_replenishWith {s : CdmDeviceService} (h : FromDefault s) (unitId : String)
    (newCount : Number) : (replenishWith s unitId newCount).fromDefault := by
  unfold replenishWith
  split
  · exact h
  · split_ifs
    · exact h
    · split
      · exact h.replenish unitId _
      · trivial

/-- What a call does: a command, a refill, or a step that is neither and that nothing is asked
of. -/
theorem callStep_cases {s : CdmDeviceService} {d' : Dispenser} {call : CdmCall}
    (h : callStep (.whole s) call = some d') :
    (∃ commandCode payload, call = .request commandCode payload ∧
      d' = .whole (executeRequest s commandCode payload).2) ∨
    (∃ unitId newCount, call = .replenish unitId newCount ∧
      d' = replenishWith s unitId newCount) ∨
    (∀ commandCode payload, call ≠ .request commandCode payload) ∧
      (∀ unitId newCount, call ≠ .replenish unitId newCount) ∧
      ∃ op s', (∀ c, op ≠ .command c) ∧ (∀ unitId n, op ≠ .replenish unitId n) ∧
        step s op = some s' ∧ d' = .whole s' := by
  cases call with
  | request commandCode payload =>
    cases h
    exact .inl ⟨commandCode, payload, rfl, rfl⟩
  | replenish unitId newCount =>
    cases h
    exact .inr (.inl ⟨unitId, newCount, rfl, rfl⟩)
  | takeTimer =>
    have hmap : (step s .takeTimer).map Dispenser.whole = some d' := h
    obtain ⟨s', hs', rfl⟩ := Option.map_eq_some_iff.mp hmap
    exact .inr (.inr ⟨nofun, nofun, .takeTimer, s', nofun, nofun, hs', rfl⟩)
  | jam unitId =>
    cases h
    exact .inr (.inr ⟨nofun, nofun, .jam unitId, _, nofun, nofun, rfl, rfl⟩)
  | clearJam unitId =>
    cases h
    exact .inr (.inr ⟨nofun, nofun, .clearJam unitId, _, nofun, nofun, rfl, rfl⟩)
  | injectError code =>
    cases h
    exact .inr (.inr ⟨nofun, nofun, .injectError code, _, nofun, nofun, rfl, rfl⟩)
  | clearError =>
    cases h
    exact .inr (.inr ⟨nofun, nofun, .clearError, _, nofun, nofun, rfl, rfl⟩)

theorem fromDefault_step {d d' : Dispenser} {call : CdmCall} (h : d.fromDefault)
    (hstep : callStep d call = some d') : d'.fromDefault := by
  cases d with
  | uneven s unitId count => cases hstep
  | whole s =>
    rcases callStep_cases hstep with ⟨commandCode, payload, -, rfl⟩ | ⟨unitId, newCount, -, rfl⟩ |
      ⟨-, -, op, s', hop, hrep, hs', rfl⟩
    · exact fromDefault_request h commandCode payload
    · exact fromDefault_replenishWith h unitId newCount
    · exact FromDefault.other h hop hrep hs'

theorem bounded_request {s : CdmDeviceService} (hdefault : FromDefault s) (h : Bounded s)
    (commandCode : String) (payload : Option Json) :
    Bounded (executeRequest s commandCode payload).2 ↔
      ∀ c, commandOf commandCode payload = some c → KeepsCommand s c := by
  unfold executeRequest
  cases hcommand : commandOf commandCode payload with
  | some c =>
    simp only [Option.some.injEq, forall_eq']
    exact bounded_executeCommand hdefault h (Prod.eta _).symm
  | none =>
    apply iff_of_true
    · exact h.of_units (consumed_of_throw s .typeError).cashUnits
    · intro c hc
      cases hc

theorem bounded_replenishWith {s : CdmDeviceService} (h : Bounded s) (unitId : String)
    (newCount : Number) :
    InBounds (replenishWith s unitId newCount) ↔ Keeps (.whole s) (.replenish unitId newCount) := by
  cases hget : s.cashUnits.get unitId with
  | none =>
    have hsame : replenishWith s unitId newCount = .whole s := by simp only [replenishWith, hget]
    rw [hsame]
    apply iff_of_true h
    intro unit hsome
    rw [hget] at hsome
    cases hsome
  | some unit =>
    have hkeeps : Keeps (.whole s) (.replenish unitId newCount) ↔
        (newCount.lt (.ofInt 0) ∨ (Number.ofInt unit.maximum).lt newCount) ∨
          newCount.toInt?.isSome := by
      simp only [Keeps, hget, Option.some.injEq, forall_eq']
    rw [hkeeps]
    by_cases hrange : newCount.lt (.ofInt 0) ∨ (Number.ofInt unit.maximum).lt newCount
    · have hsame : replenishWith s unitId newCount = .whole s := by
        simp only [replenishWith, hget, if_pos hrange]
      rw [hsame]
      exact iff_of_true h (Or.inl hrange)
    · cases hn : newCount.toInt? with
      | none =>
        have huneven : replenishWith s unitId newCount = .uneven s unitId newCount := by
          simp only [replenishWith, hget, if_neg hrange, hn]
        rw [huneven]
        exact iff_of_false id (not_or.mpr ⟨hrange, Bool.false_ne_true⟩)
      | some n =>
        refine iff_of_true ?_ (Or.inr rfl)
        rw [Number.toInt?_eq_some] at hn
        rw [hn, replenishWith_ofInt]
        rw [hn] at hrange
        simp only [Number.lt_ofInt, decide_eq_true_eq, not_or, Int.not_lt] at hrange
        show Bounded (replenishCassette s unitId n).2
        obtain ⟨hmem, -⟩ := CashUnits.get_spec hget
        let unit' : CashUnit := { unit with count := n, status := statusOfCount n unit.minimum }
        have hset : (replenishCassette s unitId n).2.cashUnits = s.cashUnits.set unit' := by
          have hin : ¬ (n < 0 ∨ unit.maximum < n) := by omega
          simp only [replenishCassette, hget, if_neg hin]
          rfl
        exact (bounded_set h hmem hset rfl).mpr hrange

/-- A jam and its end change no count. -/
theorem bounded_status {s s' : CdmDeviceService} (h : Bounded s) {unitId : String} {u : CashUnit}
    (hget : s.cashUnits.get unitId = some u) (status : CashUnitStatus)
    (hset : s'.cashUnits = s.cashUnits.set { u with status }) : Bounded s' := by
  obtain ⟨hmem, -⟩ := CashUnits.get_spec hget
  exact (bounded_set h hmem hset rfl).mpr (h u hmem)

/-- A step that is neither a command nor a refill changes at most the status of a cassette. -/
theorem step_status {s s' : CdmDeviceService} {op : CdmOp} (hop : ∀ c, op ≠ .command c)
    (hrep : ∀ unitId n, op ≠ .replenish unitId n) (hstep : step s op = some s') :
    s'.cashUnits = s.cashUnits ∨ ∃ unitId u status, s.cashUnits.get unitId = some u ∧
      s'.cashUnits = s.cashUnits.set { u with status } := by
  cases op with
  | command c => exact absurd rfl (hop c)
  | replenish unitId n => exact absurd rfl (hrep unitId n)
  | takeTimer =>
    simp only [step] at hstep
    split_ifs at hstep
    cases hstep
    left
    unfold takeTimerExpired
    split <;> rfl
  | jam unitId =>
    cases hstep
    unfold simulateJam
    split
    · exact .inl rfl
    · next u hget => exact .inr ⟨unitId, u, .jammed, hget, rfl⟩
  | clearJam unitId =>
    cases hstep
    unfold clearJam
    split
    · exact .inl rfl
    · next u hget => exact .inr ⟨unitId, u, statusOfCount u.count u.minimum, hget, rfl⟩
  | injectError code =>
    cases hstep
    exact .inl rfl
  | clearError =>
    cases hstep
    exact .inl rfl

theorem bounded_other {s s' : CdmDeviceService} (h : Bounded s) {op : CdmOp}
    (hop : ∀ c, op ≠ .command c) (hrep : ∀ unitId n, op ≠ .replenish unitId n)
    (hstep : step s op = some s') : Bounded s' := by
  rcases step_status hop hrep hstep with hsame | ⟨unitId, u, status, hget, hset⟩
  · exact h.of_units hsame
  · exact bounded_status h hget status hset

/-- One call keeps the counts within bounds exactly if it meets its condition. -/
theorem inBounds_step {d d' : Dispenser} {call : CdmCall} (hdefault : d.fromDefault)
    (h : InBounds d) (hstep : callStep d call = some d') : InBounds d' ↔ Keeps d call := by
  cases d with
  | uneven s unitId count => cases hstep
  | whole s =>
    rcases callStep_cases hstep with ⟨commandCode, payload, rfl, rfl⟩ |
      ⟨unitId, newCount, rfl, rfl⟩ | ⟨hrequest, hrefill, op, s', hop, hrep, hs', rfl⟩
    · exact bounded_request hdefault h commandCode payload
    · exact bounded_replenishWith h unitId newCount
    · apply iff_of_true (bounded_other h hop hrep hs')
      cases call with
      | request commandCode payload => exact absurd rfl (hrequest commandCode payload)
      | replenish unitId newCount => exact absurd rfl (hrefill unitId newCount)
      | _ => trivial

theorem fromDefault_new : FromDefault (.new initializeCassettes) :=
  ⟨rfl, nofun⟩

theorem bounded_new : Bounded (.new initializeCassettes) := by
  intro u hu
  simp only [CdmDeviceService.new, initializeCassettes, List.mem_cons, List.not_mem_nil,
    or_false] at hu
  rcases hu with rfl | rfl | rfl | rfl <;> decide

/-- From the default table, the counts stay within their bounds through a run exactly if all its
calls meet their conditions. -/
theorem inBounds_iff_keeps (calls : List CdmCall) :
    Runs.Always callStep InBounds (.whole (.new initializeCassettes)) calls ↔
      Runs.Along callStep Keeps (.whole (.new initializeCassettes)) calls :=
  Runs.always_iff_along Dispenser.fromDefault
    (fun _ _ _ hdefault hstep => fromDefault_step hdefault hstep)
    (fun _ _ _ hdefault h hstep => inBounds_step hdefault h hstep) fromDefault_new bounded_new

def customPayload (amount : Int) (mix : List (String × Int)) : Json :=
  .obj [
    (utf16 "amount", .num (.ofInt amount)),
    (utf16 "mixType", .str (utf16 "CUSTOM")),
    (utf16 "customMix", .obj (mix.map fun e => (utf16 e.1, .num (.ofInt e.2))))]

def customRequest (amount : Int) (mix : List (String × Int)) : CdmCall :=
  .request "WFS_CMD_CDM_DISPENSE" (some (customPayload amount mix))

/-- Two names of one denomination draw a cassette below zero; a bundle of 301 notes does not fit
into the reject unit; and two and a half notes are accepted as a refill. -/
theorem counts_out_of_bounds :
    ¬ Runs.Always callStep InBounds (.whole (.new initializeCassettes))
        [customRequest 60000000 [("100000", 300), ("1e5", 300)]] ∧
      ¬ Runs.Always callStep InBounds (.whole (.new initializeCassettes))
        [customRequest 6020000 [("20000", 301)], .request "WFS_CMD_CDM_RETRACT" none] ∧
      ¬ Runs.Always callStep InBounds (.whole (.new initializeCassettes))
        [.replenish "CASS1" (.fin (5 / 2))] := by
  refine ⟨?_, ?_, ?_⟩
  · intro h
    have hend : InBounds _ := h.2 _ rfl
    revert hend
    decide +kernel
  · intro h
    have hend : InBounds _ := (h.2 _ rfl).2 _ rfl
    revert hend
    decide +kernel
  · intro h
    have hend : InBounds _ := h.2 _ rfl
    revert hend
    decide +kernel

end AtmXfs.Cdm
