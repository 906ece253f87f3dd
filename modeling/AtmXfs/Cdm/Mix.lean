import AtmXfs.Cdm.Greedy
import AtmXfs.Lib.Runs
import Mathlib.Algebra.Order.BigOperators.Group.List

namespace AtmXfs.Cdm

open Js

def denomValue (key : DenomStr) : Int := key.toNumber.toInt?.getD 0

/-- The sum over the mix of denomination times count. -/
def mixValue (mix : Mix) : Int := (mix.map fun e => denomValue e.1 * e.2).sum

def unitValue (u : CashUnit) : Int :=
  if u.unitId = "REJECT" then 0 else u.count * u.denomination

/-- The value in the cassettes other than the reject unit. -/
def heldValue (t : CashUnits) : Int := (t.values.map unitValue).sum

/-- The mix is worth the requested amount and the announced total, the cassettes have lost
exactly that, and no count is negative. -/
structure Exact (s : CdmDeviceService) (payload : CdmDispensePayload) (r : CdmDispenseResult)
    (s' : CdmDeviceService) : Prop where
  amount : payload.amount = .ofInt (mixValue r.mix)
  total : r.totalDispensed = mixValue r.mix
  held : heldValue s'.cashUnits = heldValue s.cashUnits - mixValue r.mix
  counts : ∀ u ∈ s'.cashUnits.values, 0 ≤ u.count

/-- The notes a custom mix asks for under all the names of one denomination. -/
def requestedNotes (mix : List (String × Number)) (denom : Number) : Int :=
  ((mix.filter fun e => number e.1 = denom).map fun e => e.2.toInt?.getD 0).sum

/-- For a custom mix: the cassette found for a denomination covers all its names together. For
the minimal mix: no denomination has to be drawn from two cassettes. And the reject unit, which
a dispense leaves alone, holds no negative count. -/
def Covered (s : CdmDeviceService) (payload : CdmDispensePayload) : Prop :=
  (∀ u ∈ s.cashUnits.values, u.unitId = "REJECT" → 0 ≤ u.count) ∧
  match payload.mixType, payload.customMix with
  | .custom, some mix => ∀ denom u, findSpendableUnitByDenom s.cashUnits denom = some u →
      requestedNotes mix denom ≤ u.count
  | _, _ =>
    Change.NoSplit ((spendableUnits s.cashUnits).map pile) (payload.amount.toInt?.getD 0).toNat

/-- Doubles are exact in the request: its amount is below `2 ^ 53`, and no cassette holds more
notes than that. -/
def Safe (s : CdmDeviceService) (payload : CdmDispensePayload) : Prop :=
  payload.amount.lt (.ofInt (2 ^ 53)) = true ∧ ∀ u ∈ s.cashUnits.values, u.count ≤ 2 ^ 53

@[simp] theorem denomValue_ofNumber (n : ℕ) : denomValue (.ofNumber n) = n := by
  simp [denomValue, DenomStr.toNumber]

theorem denomValue_of_toNumber {key : DenomStr} {n : Int} (h : key.toNumber = .ofInt n) :
    denomValue key = n := by simp [denomValue, h]

@[simp] theorem mixValue_nil : mixValue [] = 0 := rfl

@[simp] theorem mixValue_cons (e : DenomStr × Int) (mix : Mix) :
    mixValue (e :: mix) = denomValue e.1 * e.2 + mixValue mix := by simp [mixValue]

theorem mixValue_append (mix mix' : Mix) :
    mixValue (mix ++ mix') = mixValue mix + mixValue mix' := by
  simp [mixValue]

theorem unitValue_drawNotes {u : CashUnit} (h : u.unitId ≠ "REJECT") (n : Int) :
    unitValue (drawNotes u n) = unitValue u - u.denomination * n := by
  have hdrawn : (drawNotes u n).unitId ≠ "REJECT" := h
  rw [unitValue, if_neg hdrawn, unitValue, if_neg h, drawNotes_count, drawNotes_denomination]
  ring

theorem mixValue_perm {mix mix' : Mix} (h : mix.Perm mix') : mixValue mix = mixValue mix' :=
  (h.map _).sum_eq

/-- The deduction takes the value of the mix out of the cassettes. -/
theorem heldValue_deduct {s s' : CdmDeviceService} {mix : Mix} (h : deduct s mix = (.ok (), s')) :
    heldValue s'.cashUnits = heldValue s.cashUnits - mixValue mix := by
  induction mix generalizing s with
  | nil =>
    cases h
    simp
  | cons e mix ih =>
    obtain ⟨u, hu, hrest⟩ := deduct_cons h
    obtain ⟨hmem, hden, hid, -⟩ := find_spec hu
    have hentry : heldValue (deductEntry s u e.2).cashUnits =
        heldValue s.cashUnits - u.denomination * e.2 := by
      rw [deductEntry_units, heldValue, sum_set hmem (drawNotes_unitId u e.2), heldValue,
        unitValue_drawNotes hid]
      ring
    rw [ih hrest, hentry, mixValue_cons, denomValue_of_toNumber hden.symm]
    ring

theorem heldValue_dispense {s s' : CdmDeviceService} {payload : CdmDispensePayload}
    {r : CdmDispenseResult} (h : dispense s payload = (.ok r, s')) :
    heldValue s'.cashUnits = heldValue s.cashUnits - mixValue r.mix := by
  rcases dispense_cases h with ⟨e, -, he, -⟩ | ⟨amount, mix, t, -, ht, hr, rfl⟩
  · cases he
  · cases hr
    rw [holdBundle_units, heldValue_deduct ht, mixValue_perm (objectEntries_perm mix)]

/-- The notes drawn from the cassette that pays its denomination are those of its names. -/
theorem drawnFrom_found {t : CashUnits} {u : CashUnit} (mix : Mix)
    (hu : findSpendableUnitByDenom t (.ofInt u.denomination) = some u) :
    drawnFrom t mix u.unitId =
      (mix.filter fun e => e.1.toNumber = .ofInt u.denomination).map Prod.snd := by
  obtain ⟨hmem, -, -, -⟩ := find_spec hu
  unfold drawnFrom
  congr 1
  apply List.filter_congr
  intro e _
  simp only [decide_eq_decide]
  constructor
  · intro h
    obtain ⟨v, hv, hid⟩ := Option.map_eq_some_iff.mp h
    obtain ⟨hvmem, hden, -, -⟩ := find_spec hv
    rw [eq_of_unitId t hvmem hmem hid] at hden
    exact hden.symm
  · intro h
    rw [h, owner, hu]
    rfl

/-- Nothing is drawn from a cassette that is not found for its denomination. -/
theorem drawnFrom_hidden {t : CashUnits} {u : CashUnit} (mix : Mix) (hmem : u ∈ t.values)
    (hu : findSpendableUnitByDenom t (.ofInt u.denomination) ≠ some u) :
    drawnFrom t mix u.unitId = [] := by
  have hnone : ∀ e ∈ mix, ¬ owner t e.1.toNumber = some u.unitId := by
    intro e _ h
    obtain ⟨v, hv, hid⟩ := Option.map_eq_some_iff.mp h
    obtain ⟨hvmem, hden, -, -⟩ := find_spec hv
    have hvu := eq_of_unitId t hvmem hmem hid
    rw [← hden, hvu] at hv
    exact hu hv
  rw [drawnFrom, List.filter_eq_nil_iff.mpr (by simpa using hnone)]
  rfl

/-- The validated mix: the entries with their counts, of positive denominations, and their sum as
far as doubles keep it. -/
theorem customMixLoop_spec {es : List (DenomStr × Number)} {sum sum' : Number} {mix mix' : Mix}
    {s : Int} (hs : 0 ≤ s) (hsum : Number.Tally s sum)
    (h : customMixLoop es sum mix = .ok (sum', mix')) :
    ∃ counts, counts = es.map (fun e => (e.1, e.2.toInt?.getD 0)) ∧ mix' = mix ++ counts ∧
      Number.Tally (s + mixValue counts) sum' := by
  induction es generalizing sum mix s with
  | nil =>
    cases h
    exact ⟨[], rfl, by simp, by simpa using hsum⟩
  | cons e es ih =>
    obtain ⟨key, n⟩ := e
    simp only [customMixLoop] at h
    split at h
    · cases h
    · next denom hdenom =>
      split_ifs at h with hpos
      split at h
      · cases h
      · next count hcount =>
        split_ifs at h with hnegative
        have hworth : 0 ≤ denom * count := Int.mul_nonneg (by omega) (by omega)
        obtain ⟨counts, rfl, rfl, htally⟩ := ih (by omega) (hsum.add_mul hs hworth) h
        refine ⟨_, rfl, ?_, ?_⟩
        · simp [hcount]
        · have hentry : s + mixValue ((key, count) :: es.map fun e => (e.1, e.2.toInt?.getD 0)) =
              s + denom * count + mixValue (es.map fun e => (e.1, e.2.toInt?.getD 0)) := by
            rw [mixValue_cons, denomValue, hdenom, Option.getD_some]
            ring
          rw [List.map_cons, hcount, Option.getD_some, hentry]
          exact htally

/-- An accepted custom mix is worth the amount, if the amount is below `2 ^ 53`. -/
theorem validateCustomMix_spec {amount : Int} {mix : List (String × Number)} {counts : Mix}
    (h : validateCustomMix amount mix = .ok counts) :
    counts.Perm (mix.map fun e => (.text e.1, e.2.toInt?.getD 0)) ∧
      (amount < 2 ^ 53 → mixValue counts = amount) := by
  unfold validateCustomMix at h
  split at h
  · cases h
  · next sum mix' hloop =>
    split_ifs at h with hsum
    cases h
    obtain ⟨counts, rfl, hcounts, htally⟩ := customMixLoop_spec le_rfl Number.tally_zero hloop
    rw [List.nil_append] at hcounts
    rw [zero_add, not_not.mp hsum] at htally
    subst hcounts
    refine ⟨?_, fun hamount => htally.eq hamount⟩
    have hperm := (objectEntries_perm (mix.map fun e => (DenomStr.text e.1, e.2))).map
      fun e => (e.1, e.2.toInt?.getD 0)
    rw [List.map_map] at hperm
    exact hperm

theorem setCount_fresh {mix : Mix} {key : DenomStr} (h : key ∉ mix.map Prod.fst) (n : Int) :
    setCount mix key n = mix ++ [(key, n)] := if_neg h

theorem keys_setCount {mix : Mix} {key : DenomStr} {n : Int} (h : (mix.map Prod.fst).Nodup) :
    ((setCount mix key n).map Prod.fst).Nodup := by
  by_cases hkey : key ∈ mix.map Prod.fst
  · have hkeys : (setCount mix key n).map Prod.fst = mix.map Prod.fst := by
      rw [setCount, if_pos hkey, List.map_map]
      apply List.map_congr_left
      intro e _
      simp only [Function.comp_apply]
      split_ifs with he
      · exact he.symm
      · rfl
    rw [hkeys]
    exact h
  · rw [setCount_fresh hkey, List.map_append]
    exact List.nodup_append.mpr ⟨h, List.nodup_singleton _, by
      rintro a ha b hb rfl
      exact hkey ((List.mem_singleton.mp hb : a = key) ▸ ha)⟩

/-- Setting the count of a name that is already there loses the old count. -/
theorem mixValue_setCount_lt {mix : Mix} (h : (mix.map Prod.fst).Nodup)
    (hpos : ∀ e ∈ mix, 0 < e.2) {key : DenomStr} (hkey : key ∈ mix.map Prod.fst)
    (hd : 0 < denomValue key) (n : Int) :
    mixValue (setCount mix key n) < mixValue mix + denomValue key * n := by
  obtain ⟨e, he, rfl⟩ := List.mem_map.mp hkey
  have hold : 0 < denomValue e.1 * e.2 := Int.mul_pos hd (hpos e he)
  have hset : mixValue (setCount mix e.1 n) =
      mixValue mix + denomValue e.1 * n - denomValue e.1 * e.2 := by
    rw [setCount, if_pos hkey]
    exact sum_replace Prod.fst h he fun e => denomValue e.1 * e.2
  omega

theorem keys_minNotesTurn {u : CashUnit} {mix : Mix} {a : Number}
    (h : (mix.map Prod.fst).Nodup) : ((minNotesTurn u mix a).1.map Prod.fst).Nodup := by
  unfold minNotesTurn
  simp only
  split_ifs
  · exact keys_setCount h
  · exact h

theorem keys_minNotesLoop {us : List CashUnit} {mix : Mix} {a : Number}
    (h : (mix.map Prod.fst).Nodup) : ((minNotesLoop us mix a).1.map Prod.fst).Nodup := by
  induction us generalizing mix a with
  | nil => exact h
  | cons u us ih =>
    simp only [minNotesLoop]
    split_ifs
    · exact keys_minNotesTurn h
    · exact ih (keys_minNotesTurn h)

/-- The mix before the rest of the loop: its names, each once, are not below the cassettes to
come, and its counts are positive. -/
structure Behind (us : List CashUnit) (mix : Mix) : Prop where
  keys : (mix.map Prod.fst).Nodup
  counts : ∀ e ∈ mix, 0 < e.2
  above : ∀ e ∈ mix, ∃ d, e.1 = .ofNumber d ∧ ∀ u ∈ us, u.denomination ≤ d

/-- The first cassette to come has nothing to add to a denomination already in the mix. -/
def HeadFresh : List CashUnit → Mix → ℕ → Prop
  | [], _, _ => True
  | u :: _, mix, a => .ofNumber u.denomination ∈ mix.map Prod.fst → a / u.denomination = 0

theorem Behind.turn {u : CashUnit} {us : List CashUnit} {mix : Mix} (h : Behind (u :: us) mix)
    (hsorted : ∀ v ∈ us, v.denomination ≤ u.denomination) (a : Number) :
    Behind us (minNotesTurn u mix a).1 := by
  refine ⟨keys_minNotesTurn h.keys, ?_, ?_⟩
  · intro e he
    rcases mem_minNotesTurn he with he | ⟨-, hpos, -⟩
    · exact h.counts e he
    · exact hpos
  · intro e he
    rcases mem_minNotesTurn he with he | ⟨hkey, -, -⟩
    · obtain ⟨d, hd, hle⟩ := h.above e he
      exact ⟨d, hd, fun v hv => hle v (List.mem_cons_of_mem _ hv)⟩
    · exact ⟨u.denomination, hkey, hsorted⟩

/-- A name in the mix is not below a cassette to come. -/
theorem Behind.le_of_mem {us : List CashUnit} {mix : Mix} (h : Behind us mix) {v : CashUnit}
    (hv : v ∈ us) {d : ℕ} (hd : .ofNumber d ∈ mix.map Prod.fst) : v.denomination ≤ d := by
  obtain ⟨e, he, hkey⟩ := List.mem_map.mp hd
  obtain ⟨d', hd', hle⟩ := h.above e he
  rw [hkey, DenomStr.ofNumber.injEq] at hd'
  rw [hd']
  exact hle v hv

theorem headFresh_of_not_mem {u : CashUnit} {us : List CashUnit} {mix : Mix} {a : ℕ}
    (h : .ofNumber u.denomination ∉ mix.map Prod.fst) : HeadFresh (u :: us) mix a :=
  fun hmem => absurd hmem h

/-- One turn keeps the value of the mix and the remainder together, unless it sets a name that
is already there. -/
theorem minNotesTurn_value {u : CashUnit} {us : List CashUnit} {mix : Mix}
    (hd : 0 < u.denomination) (hc : 0 < u.count) (hb : Behind (u :: us) mix) {a : ℕ}
    (ha : a < 2 ^ 53) :
    mixValue (minNotesTurn u mix (.ofInt a)).1 + Change.after u.denomination u.count.toNat a ≤
        mixValue mix + a ∧
      (mixValue (minNotesTurn u mix (.ofInt a)).1 + Change.after u.denomination u.count.toNat a =
        mixValue mix + a ↔ HeadFresh (u :: us) mix a) := by
  have hcount : 0 < u.count.toNat := by omega
  have hafter : (Change.after u.denomination u.count.toNat a : Int) +
      (min u.count.toNat (a / u.denomination) : ℕ) * u.denomination = a := by
    exact_mod_cast Change.after_add u.denomination u.count.toNat a
  rw [minNotesTurn_eq hd hc mix ha]
  by_cases hpos : 0 < min u.count.toNat (a / u.denomination)
  · rw [if_pos hpos]
    by_cases hkey : .ofNumber u.denomination ∈ mix.map Prod.fst
    · have hlt := mixValue_setCount_lt hb.keys hb.counts hkey
        (by rw [denomValue_ofNumber]; exact_mod_cast hd)
        (min u.count.toNat (a / u.denomination) : ℕ)
      rw [denomValue_ofNumber, mul_comm] at hlt
      have hstale : ¬ HeadFresh (u :: us) mix a := by
        intro hfresh
        have h0 := hfresh hkey
        omega
      exact ⟨by simp only; omega, iff_of_false (by simp only; omega) hstale⟩
    · rw [setCount_fresh hkey, mixValue_append, mixValue_cons, denomValue_ofNumber, mixValue_nil]
      have hsame : mixValue mix + ((u.denomination : Int) *
          ((min u.count.toNat (a / u.denomination) : ℕ) : Int) + 0) +
          (Change.after u.denomination u.count.toNat a : Int) = mixValue mix + a := by
        rw [← hafter]
        ring
      exact ⟨hsame.le, iff_of_true hsame (headFresh_of_not_mem hkey)⟩
  · rw [if_neg hpos]
    rw [Nat.not_lt, Nat.le_zero] at hpos
    rw [hpos, Nat.cast_zero, zero_mul, add_zero] at hafter
    rw [hafter]
    refine ⟨le_rfl, iff_of_true rfl fun _ => ?_⟩
    rw [Nat.min_eq_zero_iff] at hpos
    exact hpos.resolve_left (by omega)

/-- The next cassette has nothing to add to a name in the mix exactly when the denomination of
the one before it is not split. -/
theorem headFresh_turn {u : CashUnit} {us : List CashUnit} {mix : Mix} (hd : 0 < u.denomination)
    (hc : 0 < u.count) (hsorted : ∀ v ∈ us, v.denomination ≤ u.denomination)
    (hb : Behind (u :: us) mix) {a : ℕ} (ha : a < 2 ^ 53) :
    (Change.NoSplit (us.map pile) (Change.after u.denomination u.count.toNat a) ∧
      HeadFresh us (minNotesTurn u mix (.ofInt a)).1
        (Change.after u.denomination u.count.toNat a)) ↔
      Change.NoSplit ((u :: us).map pile) a := by
  cases us with
  | nil => simp [Change.NoSplit, HeadFresh]
  | cons v us =>
    simp only [List.map_cons, pile, Change.NoSplit, HeadFresh]
    rw [and_comm]
    refine and_congr_left fun _ => ?_
    have hdiv := Change.after_div u.denomination u.count.toNat a hd
    by_cases hsame : u.denomination = v.denomination
    · rw [← hsame, hdiv]
      constructor
      · intro h _
        by_contra hlt
        have hpos : 0 < min u.count.toNat (a / u.denomination) := by omega
        have hmem : DenomStr.ofNumber u.denomination ∈
            (minNotesTurn u mix (.ofInt a)).1.map Prod.fst := by
          rw [minNotesTurn_eq hd hc mix ha, if_pos hpos, setCount]
          split_ifs with hkey
          · obtain ⟨e, he, hek⟩ := List.mem_map.mp hkey
            refine List.mem_map.mpr ⟨_, List.mem_map.mpr ⟨e, he, rfl⟩, ?_⟩
            rw [if_pos hek]
          · simp
        have h0 := h hmem
        omega
      · intro h _
        have hle := h rfl
        omega
    · have hlt : v.denomination < u.denomination :=
        lt_of_le_of_ne (hsorted v List.mem_cons_self) fun h => hsame h.symm
      have hnot : DenomStr.ofNumber v.denomination ∉
          (minNotesTurn u mix (.ofInt a)).1.map Prod.fst := by
        intro hmem
        obtain ⟨e, he, hek⟩ := List.mem_map.mp hmem
        rcases mem_minNotesTurn he with he | ⟨hkey, -, -⟩
        · have hle := hb.le_of_mem List.mem_cons_self (List.mem_map.mpr ⟨e, he, hek⟩)
          omega
        · rw [hek, DenomStr.ofNumber.injEq] at hkey
          omega
      exact iff_of_true (fun h => absurd h hnot) fun h => absurd h hsame

/-- The mix is worth what the loop has paid exactly when no denomination is split. -/
theorem minNotesLoop_value {us : List CashUnit} (hpos : ∀ u ∈ us, 0 < u.denomination ∧ 0 < u.count)
    (hsorted : us.Pairwise fun u v => v.denomination ≤ u.denomination) {mix : Mix}
    (hb : Behind us mix) {a : ℕ} (ha : a < 2 ^ 53) :
    mixValue (minNotesLoop us mix (.ofInt a)).1 + Change.left (us.map pile) a ≤ mixValue mix + a ∧
      (mixValue (minNotesLoop us mix (.ofInt a)).1 + Change.left (us.map pile) a =
        mixValue mix + a ↔ Change.NoSplit (us.map pile) a ∧ HeadFresh us mix a) := by
  induction us generalizing mix a with
  | nil => exact ⟨le_rfl, iff_of_true rfl ⟨trivial, trivial⟩⟩
  | cons u us ih =>
    obtain ⟨hd, hc⟩ := hpos u List.mem_cons_self
    rw [List.pairwise_cons] at hsorted
    obtain ⟨hle, heq⟩ := minNotesTurn_value hd hc hb ha
    have hnext := headFresh_turn hd hc hsorted.1 hb ha
    have hleft := minNotesTurn_left hd hc mix ha
    simp only [List.map_cons, pile] at hnext
    simp only [minNotesLoop, List.map_cons, Change.left, pile]
    split_ifs with hz
    · rw [hleft, Number.ofInt_inj, Int.natCast_eq_zero] at hz
      rw [hz] at hle heq hnext ⊢
      rw [Change.left_zero]
      refine ⟨hle, heq.trans (iff_and_self.mpr fun _ => ?_)⟩
      rw [← hnext]
      refine ⟨Change.noSplit_zero _, ?_⟩
      cases us with
      | nil => trivial
      | cons v us => exact fun _ => Nat.zero_div _
    · rw [hleft]
      obtain ⟨hle', heq'⟩ := ih (fun v hv => hpos v (List.mem_cons_of_mem _ hv)) hsorted.2
        (hb.turn hsorted.1 (.ofInt a)) (Change.after_lt_of_lt ha)
      rw [hnext] at heq'
      refine ⟨hle'.trans hle, ?_⟩
      rw [← heq, ← heq']
      constructor
      · intro h
        exact ⟨by omega, by omega⟩
      · rintro ⟨h', h⟩
        exact h'.trans h

theorem customMixLoop_nonneg {es : List (DenomStr × Number)} {sum sum' : Number}
    {mix mix' : Mix}
    (hmix : ∀ e ∈ mix, 0 ≤ e.2) (h : customMixLoop es sum mix = .ok (sum', mix')) :
    ∀ e ∈ mix', 0 ≤ e.2 := by
  induction es generalizing sum mix with
  | nil =>
    cases h
    exact hmix
  | cons e es ih =>
    obtain ⟨key, n⟩ := e
    simp only [customMixLoop] at h
    split at h
    · cases h
    · split_ifs at h
      split at h
      · cases h
      · next count hcount =>
        split_ifs at h with hnegative
        apply ih _ h
        intro e he
        rcases List.mem_append.mp he with hold | hnew
        · exact hmix e hold
        · rw [List.mem_singleton.mp hnew]
          omega

/-- No request is paid in a negative number of notes. -/
theorem chooseMix_nonneg {s : CdmDeviceService} {payload : CdmDispensePayload} {amount : Int}
    {mix : Mix} (h : chooseMix s payload amount = .ok mix) : ∀ e ∈ mix, 0 ≤ e.2 := by
  unfold chooseMix at h
  split at h
  · next custom _ _ =>
    unfold validateCustomMix at h
    split at h
    · cases h
    · next sum counts hloop =>
      split_ifs at h
      cases h
      exact customMixLoop_nonneg (by simp) hloop
  · intro e he
    obtain ⟨u, -, -, hpos, -⟩ := mem_calculateMinNotesMix h he
    exact hpos.le

theorem drawnFrom_nonneg {t : CashUnits} {mix : Mix} (h : ∀ e ∈ mix, 0 ≤ e.2) (unitId : String) :
    0 ≤ (drawnFrom t mix unitId).sum := by
  apply List.sum_nonneg
  intro n hn
  obtain ⟨e, he, rfl⟩ := List.mem_map.mp hn
  exact h e (List.mem_of_mem_filter he)

/-- No cassette but the reject unit holds more notes than it has room for. -/
def Fitting (t : CashUnits) : Prop := ∀ u ∈ t.values, u.unitId ≠ "REJECT" → u.count ≤ u.maximum

theorem Serviced.fitting {u u' : CashUnit} (h : Serviced u u')
    (hu : u.unitId ≠ "REJECT" → u.count ≤ u.maximum) :
    u'.unitId ≠ "REJECT" → u'.count ≤ u'.maximum := by
  intro hid
  cases h with
  | replenished n _ hmax => exact hmax
  | jammed => exact hu hid
  | cleared => exact hu hid
  | rejected n hrej => exact absurd hrej hid

/-- Cassettes are filled by a refill only, and that looks at their room. -/
theorem step_fitting {s s' : CdmDeviceService} {op : CdmOp} (hs : Fitting s.cashUnits)
    (h : step s op = some s') : Fitting s'.cashUnits := by
  rcases step_units h with h | ⟨payload, r, -, hd⟩ | ⟨u, hu, u', hserv, hset⟩
  · rw [h]
    exact hs
  · cases r with
    | error e =>
      rcases dispense_cases hd with ⟨_, -, -, rfl⟩ | ⟨_, _, _, -, -, hr, -⟩
      · exact hs
      · cases hr
    | ok r =>
      obtain ⟨hplan, hvalues⟩ := dispense_values hd
      obtain ⟨-, -, hmix, -⟩ := planDispense_spec hplan
      intro v hv hid
      rw [hvalues] at hv
      obtain ⟨u, hu, rfl⟩ := List.mem_map.mp hv
      have hshape := foldl_drawNotes_shape u
        (drawnFrom s.cashUnits (objectEntries r.mix) u.unitId)
      rw [unitId_of_shape hshape] at hid
      have hentries : ∀ e ∈ objectEntries r.mix, 0 ≤ e.2 :=
        fun e he => chooseMix_nonneg hmix e ((objectEntries_perm r.mix).mem_iff.mp he)
      have hdrawn := drawnFrom_nonneg (t := s.cashUnits) hentries u.unitId
      have hfit := hs u hu hid
      rw [maximum_of_shape hshape, foldl_drawNotes_count]
      omega
  · intro v hv
    rw [hset] at hv
    rcases CashUnits.mem_set hu (unitId_of_shape hserv.shape) hv with rfl | ⟨hold, -⟩
    · exact hserv.fitting (hs u hu)
    · exact hs v hold

end AtmXfs.Cdm
