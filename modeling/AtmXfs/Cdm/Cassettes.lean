import AtmXfs.Cdm.Device
import Mathlib.Algebra.BigOperators.Group.List.Basic
import Mathlib.Data.List.Find
import Mathlib.Tactic.Ring

namespace AtmXfs.Cdm

open Js

theorem eq_of_unitId (t : CashUnits) {u v : CashUnit} (hu : u ∈ t.values) (hv : v ∈ t.values)
    (h : u.unitId = v.unitId) : u = v := List.inj_on_of_nodup_map t.nodup hu hv h

namespace CashUnits

theorem get_spec {t : CashUnits} {unitId : String} {u : CashUnit} (h : t.get unitId = some u) :
    u ∈ t.values ∧ u.unitId = unitId :=
  ⟨List.mem_of_find?_eq_some h, by simpa using List.find?_some h⟩

theorem set_values {t : CashUnits} {u u' : CashUnit} (hu : u ∈ t.values)
    (hid : u'.unitId = u.unitId) :
    (t.set u').values = t.values.map fun v => if v.unitId = u.unitId then u' else v := by
  have hmem : u.unitId ∈ t.values.map CashUnit.unitId := List.mem_map_of_mem hu
  simp only [set, setUnit, hid, if_pos hmem]

theorem mem_set {t : CashUnits} {u u' v : CashUnit} (hu : u ∈ t.values)
    (hid : u'.unitId = u.unitId) (hv : v ∈ (t.set u').values) :
    v = u' ∨ (v ∈ t.values ∧ v.unitId ≠ u.unitId) := by
  rw [set_values hu hid] at hv
  obtain ⟨w, hw, rfl⟩ := List.mem_map.mp hv
  split_ifs with h
  · exact .inl rfl
  · exact .inr ⟨hw, h⟩

end CashUnits

/-- Replacing the element of one key changes a sum by the difference of the two. -/
theorem sum_replace {α κ : Type} [DecidableEq κ] (key : α → κ) {l : List α}
    (h : (l.map key).Nodup) {a a' : α} (ha : a ∈ l) (f : α → Int) :
    ((l.map fun b => if key b = key a then a' else b).map f).sum = (l.map f).sum + f a' - f a := by
  induction l with
  | nil => simp at ha
  | cons b l ih =>
    simp only [List.map_cons, List.nodup_cons] at h
    rcases List.mem_cons.mp ha with rfl | ha
    · have hrest : l.map (fun b => if key b = key a then a' else b) = l := by
        refine (List.map_congr_left fun c hc => ?_).trans (List.map_id' l)
        have hne : key c ≠ key a := fun he => h.1 (he ▸ List.mem_map_of_mem hc)
        exact if_neg hne
      simp only [List.map_cons, hrest, if_true, List.sum_cons]
      ring
    · have hne : key b ≠ key a := by
        intro he
        apply h.1
        rw [he]
        exact List.mem_map_of_mem ha
      simp only [List.map_cons, if_neg hne, List.sum_cons, ih h.2 ha]
      ring

theorem sum_set {t : CashUnits} {u u' : CashUnit} (hu : u ∈ t.values)
    (hid : u'.unitId = u.unitId) (f : CashUnit → Int) :
    ((t.set u').values.map f).sum = (t.values.map f).sum + f u' - f u := by
  rw [CashUnits.set_values hu hid]
  exact sum_replace CashUnit.unitId t.nodup hu f

/-- What a cassette is, whatever is in it. -/
def shape (u : CashUnit) : String × Nat × Int × Int × Int :=
  (u.unitId, u.denomination, u.initialCount, u.maximum, u.minimum)

theorem unitId_of_shape {u v : CashUnit} (h : shape u = shape v) : u.unitId = v.unitId :=
  congrArg Prod.fst h

theorem denomination_of_shape {u v : CashUnit} (h : shape u = shape v) :
    u.denomination = v.denomination := congrArg (fun p => p.2.1) h

theorem initialCount_of_shape {u v : CashUnit} (h : shape u = shape v) :
    u.initialCount = v.initialCount := congrArg (fun p => p.2.2.1) h

theorem maximum_of_shape {u v : CashUnit} (h : shape u = shape v) : u.maximum = v.maximum :=
  congrArg (fun p => p.2.2.2.1) h

@[simp] theorem shape_drawNotes (u : CashUnit) (n : Int) : shape (drawNotes u n) = shape u := rfl

@[simp] theorem drawNotes_unitId (u : CashUnit) (n : Int) : (drawNotes u n).unitId = u.unitId := rfl

@[simp] theorem drawNotes_denomination (u : CashUnit) (n : Int) :
    (drawNotes u n).denomination = u.denomination := rfl

@[simp] theorem drawNotes_count (u : CashUnit) (n : Int) :
    (drawNotes u n).count = u.count - n := rfl

theorem drawNotes_status (u : CashUnit) (n : Int) :
    (drawNotes u n).status = .empty ∨ (drawNotes u n).status = .low ∨
      (drawNotes u n).status = u.status := by
  simp only [drawNotes]
  split_ifs <;> simp

theorem map_shape_set {t : CashUnits} {u u' : CashUnit} (hu : u ∈ t.values)
    (h : shape u' = shape u) : (t.set u').values.map shape = t.values.map shape := by
  rw [CashUnits.set_values hu (unitId_of_shape h), List.map_map]
  apply List.map_congr_left
  intro v hv
  simp only [Function.comp_apply]
  split_ifs with hid
  · rw [h, eq_of_unitId t hv hu hid]
  · rfl

theorem find_spec {t : CashUnits} {denom : Number} {u : CashUnit}
    (h : findSpendableUnitByDenom t denom = some u) :
    u ∈ t.values ∧ Number.ofInt u.denomination = denom ∧ u.unitId ≠ "REJECT" ∧
      u.status ≠ .jammed :=
  ⟨List.mem_of_find?_eq_some h, by simpa [matchesDenom] using List.find?_some h⟩

theorem matchesDenom_drawNotes {u : CashUnit} (h : u.status ≠ .jammed) (n : Int) (denom : Number) :
    matchesDenom denom (drawNotes u n) = matchesDenom denom u := by
  have hst : (drawNotes u n).status ≠ .jammed := by
    rcases drawNotes_status u n with h' | h' | h' <;> rw [h']
    · simp
    · simp
    · exact h
  simp [matchesDenom, h, hst]

/-- Drawing from a cassette leaves it the one that is found for its denomination. -/
theorem find_draw {t : CashUnits} {d : Number} {u : CashUnit}
    (hu : findSpendableUnitByDenom t d = some u) (n : Int) (denom : Number) :
    findSpendableUnitByDenom (t.set (drawNotes u n)) denom =
      (findSpendableUnitByDenom t denom).map
        fun v => if v.unitId = u.unitId then drawNotes u n else v := by
  obtain ⟨hmem, -, -, hst⟩ := find_spec hu
  rw [findSpendableUnitByDenom, CashUnits.set_values hmem (drawNotes_unitId u n), List.find?_map]
  congr 1
  apply List.find?_congr
  intro v hv
  simp only [Function.comp_apply]
  split_ifs with hid
  · rw [matchesDenom_drawNotes hst, eq_of_unitId t hv hmem hid]
  · rfl

/-- The id of the cassette that pays a denomination. -/
def owner (t : CashUnits) (denom : Number) : Option String :=
  (findSpendableUnitByDenom t denom).map CashUnit.unitId

theorem owner_draw {t : CashUnits} {d : Number} {u : CashUnit}
    (hu : findSpendableUnitByDenom t d = some u) (n : Int) :
    owner (t.set (drawNotes u n)) = owner t := by
  funext denom
  rw [owner, find_draw hu, owner, Option.map_map]
  cases findSpendableUnitByDenom t denom with
  | none => rfl
  | some v =>
    simp only [Option.map_some, Function.comp_apply, Option.some.injEq]
    split_ifs with hid
    · exact hid.symm
    · rfl

@[simp] theorem deductEntry_units (s : CdmDeviceService) (u : CashUnit) (n : Int) :
    (deductEntry s u n).cashUnits = s.cashUnits.set (drawNotes u n) := by
  simp only [deductEntry]
  split <;> rfl

@[simp] theorem deductEntry_presentedCash (s : CdmDeviceService) (u : CashUnit) (n : Int) :
    (deductEntry s u n).presentedCash = s.presentedCash := by
  simp only [deductEntry]
  split <;> rfl

@[simp] theorem deductEntry_takeTimer (s : CdmDeviceService) (u : CashUnit) (n : Int) :
    (deductEntry s u n).takeTimer = s.takeTimer := by
  simp only [deductEntry]
  split <;> rfl

@[simp] theorem deductEntry_injectedError (s : CdmDeviceService) (u : CashUnit) (n : Int) :
    (deductEntry s u n).injectedError = s.injectedError := by
  simp only [deductEntry]
  split <;> rfl

def isThreshold : CdmEvent → Bool
  | .cashUnitThreshold _ => true
  | _ => false

theorem deductEntry_events (s : CdmDeviceService) (u : CashUnit) (n : Int) :
    ∃ es, (deductEntry s u n).events = s.events ++ es ∧ es.all isThreshold := by
  simp only [deductEntry]
  split
  · exact ⟨[_], rfl, rfl⟩
  · exact ⟨[], by simp [CdmDeviceService.putUnit], rfl⟩

/-- The loop finds a cassette for every entry that had one when it began. -/
theorem deduct_ok {s : CdmDeviceService} {mix : Mix}
    (h : ∀ e ∈ mix, (owner s.cashUnits e.1.toNumber).isSome) :
    ∃ s', deduct s mix = (.ok (), s') := by
  induction mix generalizing s with
  | nil => exact ⟨s, rfl⟩
  | cons e mix ih =>
    obtain ⟨key, n⟩ := e
    have hkey := h (key, n) List.mem_cons_self
    rw [owner, Option.isSome_map] at hkey
    obtain ⟨u, hu⟩ := Option.isSome_iff_exists.mp hkey
    simp only [deduct, hu]
    apply ih
    intro e he
    rw [deductEntry_units, owner_draw hu]
    exact h e (List.mem_cons_of_mem _ he)

theorem deduct_cons {s s' : CdmDeviceService} {key : DenomStr} {n : Int} {mix : Mix}
    (h : deduct s ((key, n) :: mix) = (.ok (), s')) :
    ∃ u, findSpendableUnitByDenom s.cashUnits key.toNumber = some u ∧
      deduct (deductEntry s u n) mix = (.ok (), s') := by
  simp only [deduct] at h
  split at h
  · cases h
  · next u hu => exact ⟨u, hu, h⟩

/-- The loop touches the cassettes and the event log, nothing else. -/
theorem deduct_frame {s s' : CdmDeviceService} {mix : Mix} (h : deduct s mix = (.ok (), s')) :
    s'.presentedCash = s.presentedCash ∧ s'.takeTimer = s.takeTimer ∧
      s'.injectedError = s.injectedError ∧
      ∃ es, s'.events = s.events ++ es ∧ es.all isThreshold := by
  induction mix generalizing s with
  | nil =>
    cases h
    exact ⟨rfl, rfl, rfl, [], by simp, rfl⟩
  | cons e mix ih =>
    obtain ⟨u, -, hrest⟩ := deduct_cons h
    obtain ⟨hcash, htimer, herr, es, hes, hall⟩ := ih hrest
    obtain ⟨es', hes', hall'⟩ := deductEntry_events s u e.2
    refine ⟨by simpa using hcash, by simpa using htimer, by simpa using herr, es' ++ es, ?_, ?_⟩
    · rw [hes, hes', List.append_assoc]
    · rw [List.all_append, hall', hall]
      rfl

/-- The counts drawn from one cassette, in the order of the loop. -/
def drawnFrom (t : CashUnits) (mix : Mix) (unitId : String) : List Int :=
  (mix.filter fun e => owner t e.1.toNumber = some unitId).map Prod.snd

/-- What the loop does to each cassette. -/
theorem deduct_values {s s' : CdmDeviceService} {mix : Mix} (h : deduct s mix = (.ok (), s')) :
    s'.cashUnits.values =
      s.cashUnits.values.map fun u => (drawnFrom s.cashUnits mix u.unitId).foldl drawNotes u := by
  induction mix generalizing s with
  | nil =>
    cases h
    simp [drawnFrom]
  | cons e mix ih =>
    obtain ⟨u, hu, hrest⟩ := deduct_cons h
    obtain ⟨hmem, -, -, -⟩ := find_spec hu
    have howner : owner s.cashUnits e.1.toNumber = some u.unitId := by rw [owner, hu]; rfl
    have hdrawn (v : CashUnit) : drawnFrom s.cashUnits (e :: mix) v.unitId =
        if v.unitId = u.unitId then e.2 :: drawnFrom s.cashUnits mix v.unitId
        else drawnFrom s.cashUnits mix v.unitId := by
      by_cases hid : v.unitId = u.unitId
      · simp [drawnFrom, howner, hid]
      · simp [drawnFrom, howner, hid, Ne.symm hid]
    have hsame : drawnFrom (s.cashUnits.set (drawNotes u e.2)) mix = drawnFrom s.cashUnits mix := by
      funext unitId
      rw [drawnFrom, owner_draw hu, drawnFrom]
    rw [ih hrest, deductEntry_units, hsame,
      CashUnits.set_values hmem (drawNotes_unitId u _), List.map_map]
    apply List.map_congr_left
    intro v hv
    rw [Function.comp_apply, hdrawn]
    split_ifs with hid
    · rw [eq_of_unitId _ hv hmem hid]
      rfl
    · rfl

theorem foldl_drawNotes_shape (u : CashUnit) (ns : List Int) :
    shape (ns.foldl drawNotes u) = shape u := by
  induction ns generalizing u with
  | nil => rfl
  | cons n ns ih => exact ih (drawNotes u n)

theorem foldl_drawNotes_count (u : CashUnit) (ns : List Int) :
    (ns.foldl drawNotes u).count = u.count - ns.sum := by
  induction ns generalizing u with
  | nil => simp
  | cons n ns ih =>
    simp only [List.foldl_cons, ih, drawNotes_count, List.sum_cons]
    ring

theorem foldl_drawNotes_status (u : CashUnit) (ns : List Int) :
    (ns.foldl drawNotes u).status = .empty ∨ (ns.foldl drawNotes u).status = .low ∨
      (ns.foldl drawNotes u).status = u.status := by
  induction ns generalizing u with
  | nil => exact .inr (.inr rfl)
  | cons n ns ih =>
    rcases ih (drawNotes u n) with h | h | h
    · exact .inl h
    · exact .inr (.inl h)
    · rcases drawNotes_status u n with h' | h' | h'
      · exact .inl (h.trans h')
      · exact .inr (.inl (h.trans h'))
      · exact .inr (.inr (h.trans h'))

/-- No notes are drawn from the reject unit. -/
theorem drawnFrom_reject (t : CashUnits) (mix : Mix) : drawnFrom t mix "REJECT" = [] := by
  have hnone : ∀ e ∈ mix, ¬ owner t e.1.toNumber = some "REJECT" := by
    intro e _ h
    obtain ⟨u, hu, hid⟩ := Option.map_eq_some_iff.mp h
    exact (find_spec hu).2.2.1 hid
  rw [drawnFrom, List.filter_eq_nil_iff.mpr (by simpa using hnone)]
  rfl

theorem objectEntries_perm {α : Type} (mix : List (DenomStr × α)) :
    (objectEntries mix).Perm mix :=
  ((List.perm_insertionSort _ _).append_right _).trans (List.filter_append_perm _ mix)

theorem preflight_ok {t : CashUnits} {mix : Mix} (h : preflight t mix = .ok ()) :
    ∀ e ∈ mix, ∃ u, findSpendableUnitByDenom t e.1.toNumber = some u ∧ e.2 ≤ u.count := by
  induction mix with
  | nil => simp
  | cons e mix ih =>
    obtain ⟨key, n⟩ := e
    simp only [preflight] at h
    split at h
    · cases h
    · next u hu =>
      split_ifs at h with hlt
      intro e he
      rcases List.mem_cons.mp he with rfl | he
      · exact ⟨u, hu, Int.not_lt.mp hlt⟩
      · exact ih h e he

theorem preflight_of_forall {t : CashUnits} {mix : Mix}
    (h : ∀ e ∈ mix, ∃ u, findSpendableUnitByDenom t e.1.toNumber = some u ∧ e.2 ≤ u.count) :
    preflight t mix = .ok () := by
  induction mix with
  | nil => rfl
  | cons e mix ih =>
    obtain ⟨u, hu, hle⟩ := h e List.mem_cons_self
    obtain ⟨key, n⟩ := e
    simp only [preflight, hu, if_neg (Int.not_lt.mpr hle)]
    exact ih fun e he => h e (List.mem_cons_of_mem _ he)

/-- What the checks before the deduction have established when they pass. -/
theorem planDispense_spec {s : CdmDeviceService} {payload : CdmDispensePayload} {amount : Int}
    {mix : Mix} (h : planDispense s payload = .ok (amount, mix)) :
    payload.amount = .ofInt amount ∧ 0 < amount ∧ chooseMix s payload amount = .ok mix ∧
      preflight s.cashUnits (objectEntries mix) = .ok () := by
  unfold planDispense checkAmount at h
  split at h
  · cases h
  · next a ha =>
    split at ha
    · cases ha
    · next n hn =>
      split_ifs at ha with hle
      cases ha
      split at h
      · cases h
      · next m hm =>
        split at h
        · cases h
        · next hp =>
          cases h
          exact ⟨Number.toInt?_eq_some.mp hn, Int.not_le.mp hle, hm, hp⟩

theorem planDispense_of {s : CdmDeviceService} {payload : CdmDispensePayload} {amount : Int}
    {mix : Mix} (ha : payload.amount = .ofInt amount) (hpos : 0 < amount)
    (hm : chooseMix s payload amount = .ok mix)
    (hp : preflight s.cashUnits (objectEntries mix) = .ok ()) :
    planDispense s payload = .ok (amount, mix) := by
  simp [planDispense, checkAmount, ha, Int.not_le.mpr hpos, hm, hp]

/-- The deduced state with the bundle in the slot, presented at once if so asked. -/
def holdBundle (s : CdmDeviceService) (payload : CdmDispensePayload) (amount : Int) (mix : Mix) :
    CdmDeviceService :=
  let held := { s with presentedCash := some ⟨amount, mix⟩ }
  if payload.present then (present held).2 else held

@[simp] theorem holdBundle_units (s : CdmDeviceService) (payload : CdmDispensePayload)
    (amount : Int) (mix : Mix) : (holdBundle s payload amount mix).cashUnits = s.cashUnits := by
  simp only [holdBundle]
  split <;> rfl

@[simp] theorem holdBundle_presentedCash (s : CdmDeviceService) (payload : CdmDispensePayload)
    (amount : Int) (mix : Mix) :
    (holdBundle s payload amount mix).presentedCash = some ⟨amount, mix⟩ := by
  simp only [holdBundle]
  split <;> rfl

/-- A request either fails in the checks and changes nothing, or is deducted and held. -/
theorem dispense_cases {s s' : CdmDeviceService} {payload : CdmDispensePayload}
    {r : Except CdmError CdmDispenseResult} (h : dispense s payload = (r, s')) :
    (∃ e, planDispense s payload = .error e ∧ r = .error e ∧ s' = s) ∨
    ∃ amount mix t, planDispense s payload = .ok (amount, mix) ∧
      deduct s (objectEntries mix) = (.ok (), t) ∧ r = .ok ⟨mix, amount⟩ ∧
      s' = holdBundle t payload amount mix := by
  unfold dispense at h
  split at h
  · next e he =>
    cases h
    exact .inl ⟨e, he, rfl, rfl⟩
  · next amount mix hplan =>
    have howner : ∀ e ∈ objectEntries mix, (owner s.cashUnits e.1.toNumber).isSome := by
      intro e he
      obtain ⟨u, hu, -⟩ := preflight_ok (planDispense_spec hplan).2.2.2 e he
      rw [owner, hu]
      rfl
    obtain ⟨t, ht⟩ := deduct_ok howner
    rw [ht] at h
    cases h
    exact .inr ⟨amount, mix, t, hplan, ht, rfl, rfl⟩

theorem dispense_of_plan {s : CdmDeviceService} {payload : CdmDispensePayload} {amount : Int}
    {mix : Mix} (h : planDispense s payload = .ok (amount, mix)) :
    ∃ s', dispense s payload = (.ok ⟨mix, amount⟩, s') := by
  rcases hd : dispense s payload with ⟨r, s'⟩
  rcases dispense_cases hd with ⟨e, he, -, -⟩ | ⟨amount', mix', t, hplan, -, rfl, -⟩
  · rw [h] at he
    cases he
  · rw [h] at hplan
    cases hplan
    exact ⟨s', rfl⟩

/-- The commands that change nothing. -/
inductive AnswersOnly (s : CdmDeviceService) : CdmCommand → Except CdmError CdmResult → Prop
  | unitInfo : AnswersOnly s .cashUnitInfo (.ok (getCashUnitInfo s))
  | count : AnswersOnly s .count (.ok (count s))
  | startExchange : AnswersOnly s .startExchange (.ok .done)
  | endExchange : AnswersOnly s .endExchange (.ok .done)
  | other (code : String) : AnswersOnly s (.other code) (.error (.unsupported code))

theorem AnswersOnly.not_dispensed {s : CdmDeviceService} {c : CdmCommand}
    {r : Except CdmError CdmResult} (h : AnswersOnly s c r) : ∀ d, r ≠ .ok (.dispensed d) := by
  cases h <;> simp [getCashUnitInfo, Cdm.count]

/-- What `executeCommand` does with each command. -/
inductive Executed (s : CdmDeviceService) :
    CdmCommand → Except CdmError CdmResult → CdmDeviceService → Prop
  | reset : Executed s .reset (.ok .done)
    { s with takeTimer := false, presentedCash := none, injectedError := none }
  | injected {c : CdmCommand} {code : Int} : c ≠ .reset → s.injectedError = some code →
    Executed s c (.error (.injected code)) { s with injectedError := none }
  | dispense {payload : CdmDispensePayload} {r' : Except CdmError CdmDispenseResult}
      {r : Except CdmError CdmResult} {s' : CdmDeviceService} : s.injectedError = none →
    dispense s payload = (r', s') → r = r'.map .dispensed → Executed s (.dispense payload) r s'
  | present {r : Except CdmError CdmResult} {s' : CdmDeviceService} : s.injectedError = none →
    present s = (r, s') → Executed s .present r s'
  | retract {c : CdmCommand} {r : Except CdmError CdmResult} {s' : CdmDeviceService} :
    s.injectedError = none → c = .retract ∨ c = .reject → retract s = (r, s') → Executed s c r s'
  | answered {c : CdmCommand} {r : Except CdmError CdmResult} : s.injectedError = none →
    AnswersOnly s c r → Executed s c r s

theorem executeCommand_executed {s s' : CdmDeviceService} {c : CdmCommand}
    {r : Except CdmError CdmResult} (h : executeCommand s c = (r, s')) : Executed s c r s' := by
  by_cases hreset : c = .reset
  · subst hreset
    cases h
    exact .reset
  · have hchecked : checkInjectedError (perform · c) s = (r, s') := by
      cases c with
      | reset => exact absurd rfl hreset
      | _ => exact h
    cases hinjected : s.injectedError with
    | some code =>
      rw [checkInjectedError_some hinjected] at hchecked
      cases hchecked
      exact .injected hreset hinjected
    | none =>
      rw [checkInjectedError_none hinjected] at hchecked
      replace h : perform s c = (r, s') := hchecked
      unfold perform at h
      cases c with
      | dispense payload =>
        rcases hd : dispense s payload with ⟨r' | r', t⟩
        · simp only [hd] at h
          cases h
          exact .dispense hinjected hd rfl
        · simp only [hd] at h
          cases h
          exact .dispense hinjected hd rfl
      | present => exact .present hinjected h
      | retract => exact .retract hinjected (.inl rfl) h
      | reject => exact .retract hinjected (.inr rfl) h
      | cashUnitInfo =>
        cases h
        exact .answered hinjected .unitInfo
      | count =>
        cases h
        exact .answered hinjected .count
      | startExchange =>
        cases h
        exact .answered hinjected .startExchange
      | endExchange =>
        cases h
        exact .answered hinjected .endExchange
      | reset => exact absurd rfl hreset
      | other code =>
        cases h
        exact .answered hinjected (.other code)

theorem executeCommand_injected {s s' : CdmDeviceService} {c : CdmCommand}
    {r : Except CdmError CdmResult} {code : Int} (hc : c ≠ .reset)
    (hinjected : s.injectedError = some code) (h : executeCommand s c = (r, s')) :
    (r, s') = (.error (.injected code), { s with injectedError := none }) := by
  have hother : s.injectedError ≠ none := by simp [hinjected]
  cases executeCommand_executed h with
  | reset => exact absurd rfl hc
  | injected _ hcode =>
    rw [hinjected, Option.some.injEq] at hcode
    rw [hcode]
  | dispense hnone _ _ => exact absurd hnone hother
  | present hnone _ => exact absurd hnone hother
  | retract hnone _ _ => exact absurd hnone hother
  | answered hnone _ => exact absurd hnone hother

theorem executeCommand_dispense {s s' : CdmDeviceService} {payload : CdmDispensePayload}
    {r : Except CdmError CdmResult} (hnone : s.injectedError = none)
    (h : executeCommand s (.dispense payload) = (r, s')) :
    ∃ r', dispense s payload = (r', s') ∧ r = r'.map .dispensed := by
  cases executeCommand_executed h with
  | injected _ hinjected =>
    rw [hnone] at hinjected
    cases hinjected
  | dispense _ hd hr => exact ⟨_, hd, hr⟩
  | retract _ hc _ => rcases hc with hc | hc <;> cases hc
  | answered _ hanswer => cases hanswer

/-- What the operator and the reject path can do to one cassette. -/
inductive Serviced (u : CashUnit) : CashUnit → Prop
  | replenished (n : Int) : 0 ≤ n → n ≤ u.maximum →
    Serviced u { u with count := n, status := statusOfCount n u.minimum }
  | jammed : Serviced u { u with status := .jammed }
  | cleared : Serviced u { u with status := statusOfCount u.count u.minimum }
  | rejected (n : Int) : u.unitId = "REJECT" → Serviced u { u with count := u.count + n }

theorem Serviced.shape {u u' : CashUnit} (h : Serviced u u') : shape u' = shape u := by
  cases h <;> rfl

theorem present_units {s s' : CdmDeviceService} {r : Except CdmError CdmResult}
    (h : present s = (r, s')) : s'.cashUnits = s.cashUnits := by
  unfold present at h
  split at h
  · cases h
    rfl
  · cases h
    rfl

/-- A retract puts the notes of the bundle into the reject unit, if there are both. -/
theorem retract_units {s s' : CdmDeviceService} {r : Except CdmError CdmResult}
    (h : retract s = (r, s')) : s'.cashUnits = s.cashUnits ∨
      ∃ cash u, s.presentedCash = some cash ∧ s.cashUnits.get "REJECT" = some u ∧
        s'.cashUnits = s.cashUnits.set { u with count := u.count + totalNotes cash.notes } := by
  unfold retract at h
  split at h
  · cases h
    exact .inl rfl
  · next cash hcash =>
    split at h
    · cases h
      exact .inl rfl
    · next u hu =>
      cases h
      exact .inr ⟨cash, u, hcash, hu, rfl⟩

theorem present_not_dispensed {s s' : CdmDeviceService} {d : CdmDispenseResult} :
    present s ≠ (.ok (.dispensed d), s') := by
  unfold present
  split <;> simp

theorem retract_not_dispensed {s s' : CdmDeviceService} {d : CdmDispenseResult} :
    retract s ≠ (.ok (.dispensed d), s') := by
  unfold retract
  split
  · simp
  · simp only
    split <;> simp

/-- Only a DISPENSE answers with a mix. -/
theorem dispensed_cases {s s' : CdmDeviceService} {c : CdmCommand} {d : CdmDispenseResult}
    (h : executeCommand s c = (.ok (.dispensed d), s')) :
    ∃ payload, c = .dispense payload ∧ dispense s payload = (.ok d, s') := by
  cases executeCommand_executed h with
  | @dispense payload r' _ _ _ hd hr =>
    cases r' with
    | error e => cases hr
    | ok d' =>
      cases hr
      exact ⟨payload, rfl, hd⟩
  | present _ hp => exact absurd hp present_not_dispensed
  | retract _ _ hr => exact absurd hr retract_not_dispensed
  | answered _ hanswer => exact absurd rfl (hanswer.not_dispensed d)

/-- Only a DISPENSE and a retract touch the cassettes. -/
theorem executeCommand_cases {s s' : CdmDeviceService} {c : CdmCommand}
    {r : Except CdmError CdmResult} (h : executeCommand s c = (r, s')) :
    s'.cashUnits = s.cashUnits ∨
    (∃ payload r', c = .dispense payload ∧ dispense s payload = (r', s')) ∨
    (c = .retract ∨ c = .reject) ∧ ∃ cash u, s.presentedCash = some cash ∧
      s.cashUnits.get "REJECT" = some u ∧
      s'.cashUnits = s.cashUnits.set { u with count := u.count + totalNotes cash.notes } := by
  cases executeCommand_executed h with
  | reset => exact .inl rfl
  | injected _ _ => exact .inl rfl
  | @dispense payload r' _ _ _ hd _ => exact .inr (.inl ⟨payload, r', rfl, hd⟩)
  | present _ hp => exact .inl (present_units hp)
  | retract _ hc hr => exact (retract_units hr).imp_right fun hset => .inr ⟨hc, hset⟩
  | answered _ _ => exact .inl rfl

theorem executeCommand_units {s s' : CdmDeviceService} {c : CdmCommand}
    {r : Except CdmError CdmResult} (h : executeCommand s c = (r, s')) :
    s'.cashUnits = s.cashUnits ∨
    (∃ payload r', c = .dispense payload ∧ dispense s payload = (r', s')) ∨
    ∃ u ∈ s.cashUnits.values, ∃ u', Serviced u u' ∧ s'.cashUnits = s.cashUnits.set u' := by
  rcases executeCommand_cases h with h | h | ⟨-, cash, u, -, hu, hset⟩
  · exact .inl h
  · exact .inr (.inl h)
  · obtain ⟨hmem, hid⟩ := CashUnits.get_spec hu
    exact .inr (.inr ⟨u, hmem, _, .rejected (totalNotes cash.notes) hid, hset⟩)

/-- Everything one step can do to the cassettes. -/
theorem step_units {s s' : CdmDeviceService} {op : CdmOp} (h : step s op = some s') :
    s'.cashUnits = s.cashUnits ∨
    (∃ payload r, op = .command (.dispense payload) ∧ dispense s payload = (r, s')) ∨
    ∃ u ∈ s.cashUnits.values, ∃ u', Serviced u u' ∧ s'.cashUnits = s.cashUnits.set u' := by
  cases op with
  | command c =>
    cases h
    rcases executeCommand_units (Prod.eta (executeCommand s c)).symm with
      h | ⟨payload, r, rfl, hd⟩ | h
    · exact .inl h
    · exact .inr (.inl ⟨payload, r, rfl, hd⟩)
    · exact .inr (.inr h)
  | takeTimer =>
    simp only [step] at h
    split_ifs at h
    cases h
    refine .inl ?_
    unfold takeTimerExpired
    split <;> rfl
  | replenish unitId n =>
    cases h
    unfold replenishCassette
    split
    · exact .inl rfl
    · next u hu =>
      split_ifs with hrange
      · exact .inl rfl
      · obtain ⟨hmem, -⟩ := CashUnits.get_spec hu
        exact .inr (.inr ⟨u, hmem, _, .replenished n (by omega) (by omega), rfl⟩)
  | jam unitId =>
    cases h
    unfold simulateJam
    split
    · exact .inl rfl
    · next u hu => exact .inr (.inr ⟨u, (CashUnits.get_spec hu).1, _, .jammed, rfl⟩)
  | clearJam unitId =>
    cases h
    unfold clearJam
    split
    · exact .inl rfl
    · next u hu => exact .inr (.inr ⟨u, (CashUnits.get_spec hu).1, _, .cleared, rfl⟩)
  | injectError code =>
    cases h
    exact .inl rfl
  | clearError =>
    cases h
    exact .inl rfl

/-- The cassettes a dispense leaves, each with what was drawn from it. -/
theorem dispense_values {s s' : CdmDeviceService} {payload : CdmDispensePayload}
    {r : CdmDispenseResult} (h : dispense s payload = (.ok r, s')) :
    planDispense s payload = .ok (r.totalDispensed, r.mix) ∧
      s'.cashUnits.values = s.cashUnits.values.map fun u =>
        (drawnFrom s.cashUnits (objectEntries r.mix) u.unitId).foldl drawNotes u := by
  rcases dispense_cases h with ⟨e, -, he, -⟩ | ⟨amount, mix, t, hplan, ht, hr, rfl⟩
  · cases he
  · cases hr
    exact ⟨hplan, by rw [holdBundle_units, deduct_values ht]⟩

/-- No step changes which cassettes there are. -/
theorem step_shape {s s' : CdmDeviceService} {op : CdmOp} (h : step s op = some s') :
    s'.cashUnits.values.map shape = s.cashUnits.values.map shape := by
  rcases step_units h with h | ⟨payload, r, -, hd⟩ | ⟨u, hu, u', hserv, hset⟩
  · rw [h]
  · cases r with
    | error e =>
      rcases dispense_cases hd with ⟨_, -, -, rfl⟩ | ⟨_, _, _, -, -, hr, -⟩
      · rfl
      · cases hr
    | ok r =>
      rw [(dispense_values hd).2, List.map_map]
      apply List.map_congr_left
      intro u _
      exact foldl_drawNotes_shape u _
  · rw [hset, map_shape_set hu hserv.shape]

end AtmXfs.Cdm
