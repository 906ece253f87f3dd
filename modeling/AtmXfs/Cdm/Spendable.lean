import AtmXfs.Cdm.Exactness

namespace AtmXfs.Cdm

open Js

/-- The dispenser with the cassettes that `simulateJam` was called for and `clearJam` since not. -/
abbrev Jams := CdmDeviceService × List String

def jamsAfter (jams : List String) : CdmOp → List String
  | .jam unitId => unitId :: jams
  | .clearJam unitId => jams.filter fun other => other ≠ unitId
  | _ => jams

def jamStep (c : Jams) (op : CdmOp) : Option Jams :=
  (step c.1 op).map fun s => (s, jamsAfter c.2 op)

/-- No note leaves the reject unit, an inoperative cassette or a jammed one; and the cassettes that
notes are chosen from are those that a lookup by denomination finds. -/
structure Respects (c : Jams) : Prop where
  taken : ∀ payload r s', executeCommand c.1 (.dispense payload) = (r, s') →
    ∀ u ∈ c.1.cashUnits.values, ∀ u' ∈ s'.cashUnits.values, u'.unitId = u.unitId →
      u'.count < u.count → u.unitId ≠ "REJECT" ∧ u.status ≠ .inoperative ∧ u.unitId ∉ c.2
  agree : ∀ u ∈ c.1.cashUnits.values, spendable u = true ↔
    0 < u.count ∧ findSpendableUnitByDenom c.1.cashUnits (.ofInt u.denomination) = some u

/-- No cassette that notes are chosen from stands behind one that the lookup finds first. -/
def Leading (t : CashUnits) : Prop :=
  t.values.Pairwise fun v u => spendable u = true → matchesDenom (.ofInt u.denomination) v = false

instance (t : CashUnits) : Decidable (Leading t) := by
  unfold Leading
  infer_instance

/-- No cassette that holds notes is inoperative. -/
def NoneStopped (units : List CashUnit) : Prop :=
  ∀ u ∈ units, u.unitId ≠ "REJECT" → u.status = .inoperative → u.count ≤ 0

/-- The condition on the steps of a run: a jammed cassette is not refilled before its jam is
cleared. -/
def clearsFirst (c : Jams) : CdmOp → Bool
  | .replenish unitId _ => unitId ∉ c.2
  | _ => true

/-- The status tells of every jam. -/
structure Marked (c : Jams) : Prop where
  jammed : ∀ u ∈ c.1.cashUnits.values, u.unitId ∈ c.2 → u.status = .jammed
  working : NoneStopped c.1.cashUnits.values

/-- A lookup with its own predicate for each element finds the element itself iff the lookup finds
none before it. -/
theorem find?_own_iff {α : Type} (chosen : α → Bool) (q : α → α → Bool) {l : List α}
    (hnodup : l.Nodup) (hown : ∀ a ∈ l, chosen a = true → q a a = true) :
    (∀ a ∈ l, chosen a = true → l.find? (q a) = some a) ↔
      l.Pairwise fun b a => chosen a = true → q a b = false := by
  induction l with
  | nil => simp
  | cons b l ih =>
    obtain ⟨hb, hl⟩ := List.nodup_cons.mp hnodup
    have hrest := ih hl fun a ha => hown a (List.mem_cons_of_mem b ha)
    rw [List.pairwise_cons, ← hrest]
    have hne : ∀ a ∈ l, b ≠ a := fun a ha heq => hb (heq ▸ ha)
    constructor
    · intro h
      have hbefore : ∀ a ∈ l, chosen a = true → q a b = false := by
        intro a ha hchosen
        have hfind := h a (List.mem_cons_of_mem b ha) hchosen
        cases hq : q a b with
        | false => rfl
        | true =>
          rw [List.find?_cons_of_pos hq] at hfind
          exact absurd (Option.some.inj hfind) (hne a ha)
      refine ⟨hbefore, ?_⟩
      intro a ha hchosen
      have hfind := h a (List.mem_cons_of_mem b ha) hchosen
      rw [List.find?_cons_of_neg (by simp [hbefore a ha hchosen])] at hfind
      exact hfind
    · intro h a ha hchosen
      rcases List.mem_cons.mp ha with rfl | ha'
      · exact List.find?_cons_of_pos (hown a ha hchosen)
      · rw [List.find?_cons_of_neg (by simp [h.1 a ha' hchosen])]
        exact h.2 a ha' hchosen

theorem matchesDenom_self {u : CashUnit} (h : spendable u = true) :
    matchesDenom (.ofInt u.denomination) u = true := by
  obtain ⟨hid, hjam, -, -⟩ := spendable_iff.mp h
  simp [matchesDenom, hid, hjam]

theorem nodup_values (t : CashUnits) : t.values.Nodup := List.Nodup.of_map _ t.nodup

/-- Where no cassette with notes is inoperative, the lookup and the choice of notes agree exactly
if no chosen cassette stands behind another. -/
theorem agree_iff_leading {t : CashUnits} (h : NoneStopped t.values) :
    (∀ u ∈ t.values, spendable u = true ↔
      0 < u.count ∧ findSpendableUnitByDenom t (.ofInt u.denomination) = some u) ↔ Leading t := by
  have hfind := find?_own_iff spendable (fun u => matchesDenom (.ofInt u.denomination))
    (nodup_values t) fun u _ hspend => matchesDenom_self hspend
  rw [Leading, ← hfind]
  constructor
  · intro hagree u hu hspend
    exact ((hagree u hu).mp hspend).2
  · intro hfound u hu
    constructor
    · intro hspend
      exact ⟨(spendable_iff.mp hspend).2.2.2, hfound u hu hspend⟩
    · intro hboth
      obtain ⟨-, -, hid, hjam⟩ := find_spec hboth.2
      apply spendable_iff.mpr
      refine ⟨hid, hjam, ?_, hboth.1⟩
      intro hstopped
      have hempty := h u hu hid hstopped
      omega

/-- A cassette that holds no notes gives none. -/
theorem drawnFrom_empty {t : CashUnits} {mix : Mix} (hmix : ∀ e ∈ mix, 0 ≤ e.2)
    (hpre : preflight t mix = .ok ()) {u : CashUnit}
    (hu : findSpendableUnitByDenom t (.ofInt u.denomination) = some u) (hempty : u.count ≤ 0) :
    (drawnFrom t mix u.unitId).sum = 0 := by
  apply List.sum_eq_zero
  intro n hn
  rw [drawnFrom_found mix hu] at hn
  obtain ⟨e, he, rfl⟩ := List.mem_map.mp hn
  rw [List.mem_filter, decide_eq_true_eq] at he
  obtain ⟨v, hv, hle⟩ := preflight_ok hpre e he.1
  rw [he.2, hu, Option.some.injEq] at hv
  rw [← hv] at hle
  have hpos := hmix e he.1
  omega

/-- The cassettes after a DISPENSE, each with what it gave; only those that the lookup finds gave
anything. -/
theorem dispense_drawn {s s' : CdmDeviceService} {payload : CdmDispensePayload}
    {r : Except CdmError CdmDispenseResult} (h : dispense s payload = (r, s')) :
    ∃ drawn : CashUnit → List Int,
      s'.cashUnits.values = s.cashUnits.values.map (fun u => (drawn u).foldl drawNotes u) ∧
      ∀ u ∈ s.cashUnits.values, 0 ≤ (drawn u).sum ∧ (drawn u ≠ [] →
        findSpendableUnitByDenom s.cashUnits (.ofInt u.denomination) = some u ∧
          (u.count ≤ 0 → (drawn u).sum = 0)) := by
  cases r with
  | error e =>
    refine ⟨fun _ => [], ?_, ?_⟩
    · rcases dispense_cases h with ⟨_, -, -, rfl⟩ | ⟨_, _, _, -, -, hr, -⟩
      · simp
      · cases hr
    · intro u _
      exact ⟨le_rfl, fun hne => absurd rfl hne⟩
  | ok r =>
    obtain ⟨hplan, hvalues⟩ := dispense_values h
    obtain ⟨-, -, hmix, hpre⟩ := planDispense_spec hplan
    have hnonneg : ∀ e ∈ objectEntries r.mix, 0 ≤ e.2 := by
      intro e he
      exact chooseMix_nonneg hmix e ((objectEntries_perm r.mix).mem_iff.mp he)
    refine ⟨fun u => drawnFrom s.cashUnits (objectEntries r.mix) u.unitId, hvalues, ?_⟩
    intro u hu
    refine ⟨drawnFrom_nonneg hnonneg u.unitId, ?_⟩
    intro hne
    have hfound : findSpendableUnitByDenom s.cashUnits (.ofInt u.denomination) = some u := by
      by_contra hhidden
      exact hne (drawnFrom_hidden _ hu hhidden)
    exact ⟨hfound, drawnFrom_empty hnonneg hpre hfound⟩

/-- The status keeps notes in the cassettes they must not leave. -/
theorem Marked.taken {c : Jams} (h : Marked c) {payload : CdmDispensePayload}
    {r : Except CdmError CdmResult} {s' : CdmDeviceService}
    (hr : executeCommand c.1 (.dispense payload) = (r, s')) {u u' : CashUnit}
    (hu : u ∈ c.1.cashUnits.values) (hu' : u' ∈ s'.cashUnits.values) (hid : u'.unitId = u.unitId)
    (hless : u'.count < u.count) :
    u.unitId ≠ "REJECT" ∧ u.status ≠ .inoperative ∧ u.unitId ∉ c.2 := by
  rcases executeCommand_cases hr with hsame | ⟨_, r', -, hd⟩ | ⟨hcommand, -⟩
  · rw [hsame] at hu'
    rw [eq_of_unitId _ hu' hu hid] at hless
    omega
  · obtain ⟨drawn, hvalues, hdrawn⟩ := dispense_drawn hd
    rw [hvalues] at hu'
    obtain ⟨v, hv, rfl⟩ := List.mem_map.mp hu'
    rw [unitId_of_shape (foldl_drawNotes_shape v (drawn v))] at hid
    rw [eq_of_unitId _ hv hu hid, foldl_drawNotes_count] at hless
    obtain ⟨-, hfrom⟩ := hdrawn u hu
    have hne : drawn u ≠ [] := by
      intro hnone
      rw [hnone] at hless
      simp at hless
    obtain ⟨hfound, hempty⟩ := hfrom hne
    obtain ⟨-, -, hreject, hjam⟩ := find_spec hfound
    refine ⟨hreject, ?_, ?_⟩
    · intro hstopped
      have hzero := hempty (h.working u hu hreject hstopped)
      omega
    · intro hmem
      exact hjam (h.jammed u hu hmem)
  · rcases hcommand with hcommand | hcommand
    · cases hcommand
    · cases hcommand

theorem statusOfCount_ne_inoperative (count minimum : Int) :
    statusOfCount count minimum ≠ .inoperative := by
  unfold statusOfCount
  split_ifs <;> simp

/-- Replacing one cassette keeps the marks if the new one is marked as it should be. -/
theorem Marked.set {c : Jams} (h : Marked c) {u u' : CashUnit} {s' : CdmDeviceService}
    {jams : List String} (hu : u ∈ c.1.cashUnits.values)
    (hset : s'.cashUnits = c.1.cashUnits.set u') (hid : u'.unitId = u.unitId)
    (hjams : ∀ unitId, unitId ≠ u.unitId → unitId ∈ jams → unitId ∈ c.2)
    (hjammed : u.unitId ∈ jams → u'.status = .jammed)
    (hworking : u'.unitId ≠ "REJECT" → u'.status = .inoperative → u'.count ≤ 0) :
    Marked (s', jams) := by
  refine ⟨?_, ?_⟩
  · intro v hv hmem
    rw [hset] at hv
    rcases CashUnits.mem_set hu hid hv with rfl | ⟨hold, hne⟩
    · rw [hid] at hmem
      exact hjammed hmem
    · exact h.jammed v hold (hjams v.unitId hne hmem)
  · intro v hv
    rw [hset] at hv
    rcases CashUnits.mem_set hu hid hv with rfl | ⟨hold, -⟩
    · exact hworking
    · exact h.working v hold

theorem Marked.of_units {c : Jams} (h : Marked c) {s' : CdmDeviceService}
    (hunits : s'.cashUnits = c.1.cashUnits) : Marked (s', c.2) := by
  refine ⟨?_, ?_⟩
  · show ∀ u ∈ s'.cashUnits.values, u.unitId ∈ c.2 → u.status = .jammed
    rw [hunits]
    exact h.jammed
  · show NoneStopped s'.cashUnits.values
    rw [hunits]
    exact h.working

theorem Marked.dispense {c : Jams} (h : Marked c) {payload : CdmDispensePayload}
    {r : Except CdmError CdmDispenseResult} {s' : CdmDeviceService}
    (hd : Cdm.dispense c.1 payload = (r, s')) : Marked (s', c.2) := by
  obtain ⟨drawn, hvalues, hdrawn⟩ := dispense_drawn hd
  refine ⟨?_, ?_⟩
  · intro v hv hmem
    rw [hvalues] at hv
    obtain ⟨u, hu, rfl⟩ := List.mem_map.mp hv
    rw [unitId_of_shape (foldl_drawNotes_shape u (drawn u))] at hmem
    have hjammed := h.jammed u hu hmem
    have hnone : drawn u = [] := by
      by_contra hne
      exact (find_spec ((hdrawn u hu).2 hne).1).2.2.2 hjammed
    rw [hnone]
    exact hjammed
  · intro v hv hid hstopped
    rw [hvalues] at hv
    obtain ⟨u, hu, rfl⟩ := List.mem_map.mp hv
    rw [unitId_of_shape (foldl_drawNotes_shape u (drawn u))] at hid
    rw [foldl_drawNotes_count]
    have hpos := (hdrawn u hu).1
    rcases foldl_drawNotes_status u (drawn u) with hempty | hlow | hsame
    · rw [hempty] at hstopped
      cases hstopped
    · rw [hlow] at hstopped
      cases hstopped
    · rw [hsame] at hstopped
      have hcount := h.working u hu hid hstopped
      omega

theorem Marked.replenish {c : Jams} (h : Marked c) {unitId : String} (hfree : unitId ∉ c.2)
    (n : Int) : Marked ((replenishCassette c.1 unitId n).2, c.2) := by
  unfold replenishCassette
  split
  · exact h
  · next u hu =>
    split_ifs
    · exact h
    · obtain ⟨hmem, hid⟩ := CashUnits.get_spec hu
      let u' : CashUnit := { u with count := n, status := statusOfCount n u.minimum }
      have hset : (c.1.putUnit u').cashUnits = c.1.cashUnits.set u' := rfl
      apply h.set hmem hset rfl fun _ _ hjams => hjams
      · intro hjams
        exact absurd (hid ▸ hjams) hfree
      · intro _ hstopped
        exact absurd hstopped (statusOfCount_ne_inoperative n u.minimum)

theorem Marked.jam {c : Jams} (h : Marked c) (unitId : String) :
    Marked ((simulateJam c.1 unitId).2, unitId :: c.2) := by
  unfold simulateJam
  split
  · next hnone =>
    refine ⟨?_, h.working⟩
    intro u hu hjams
    have hother : u.unitId ≠ unitId := by
      have hall := List.find?_eq_none.mp hnone u hu
      simpa using hall
    exact h.jammed u hu ((List.mem_cons.mp hjams).resolve_left hother)
  · next u hu =>
    obtain ⟨hmem, hid⟩ := CashUnits.get_spec hu
    let u' : CashUnit := { u with status := .jammed }
    have hset : ((c.1.putUnit u').emit (.jam unitId)).cashUnits = c.1.cashUnits.set u' := rfl
    apply h.set hmem hset rfl
    · intro other hne hjams
      exact (List.mem_cons.mp hjams).resolve_left fun heq => hne (heq.trans hid.symm)
    · intro _
      rfl
    · intro _ hstopped
      cases hstopped

theorem Marked.clearJam {c : Jams} (h : Marked c) (unitId : String) :
    Marked ((Cdm.clearJam c.1 unitId).2, c.2.filter fun other => other ≠ unitId) := by
  unfold Cdm.clearJam
  split
  · refine ⟨?_, h.working⟩
    intro u hu hjams
    exact h.jammed u hu (List.mem_of_mem_filter hjams)
  · next u hu =>
    obtain ⟨hmem, hid⟩ := CashUnits.get_spec hu
    let u' : CashUnit := { u with status := statusOfCount u.count u.minimum }
    have hset : (c.1.putUnit u').cashUnits = c.1.cashUnits.set u' := rfl
    apply h.set hmem hset rfl
    · intro other _ hjams
      exact List.mem_of_mem_filter hjams
    · intro hjams
      simp [hid] at hjams
    · intro _ hstopped
      exact absurd hstopped (statusOfCount_ne_inoperative u.count u.minimum)

/-- What a step does, short of refilling a jammed cassette, leaves every jam marked. -/
theorem Marked.step {c c' : Jams} {op : CdmOp} (h : Marked c) (hok : clearsFirst c op = true)
    (hstep : jamStep c op = some c') : Marked c' := by
  obtain ⟨s', hs', rfl⟩ := Option.map_eq_some_iff.mp hstep
  cases op with
  | command command =>
    cases hs'
    rcases executeCommand_cases (Prod.eta (executeCommand c.1 command)).symm with
      hsame | ⟨_, r', -, hd⟩ | ⟨-, cash, u, -, hu, hset⟩
    · exact h.of_units hsame
    · exact h.dispense hd
    · obtain ⟨hmem, hid⟩ := CashUnits.get_spec hu
      exact h.set hmem hset rfl (fun _ _ hjams => hjams) (h.jammed u hmem)
        fun hne => absurd hid hne
  | takeTimer =>
    simp only [Cdm.step] at hs'
    split_ifs at hs'
    cases hs'
    apply h.of_units
    unfold takeTimerExpired
    split <;> rfl
  | replenish unitId n =>
    cases hs'
    have hfree : unitId ∉ c.2 := by simpa [clearsFirst] using hok
    exact h.replenish hfree n
  | jam unitId =>
    cases hs'
    exact h.jam unitId
  | clearJam unitId =>
    cases hs'
    exact h.clearJam unitId
  | injectError code =>
    cases hs'
    exact h.of_units rfl
  | clearError =>
    cases hs'
    exact h.of_units rfl

theorem marked_loaded {units : List CashUnit} (h : NoneStopped units) :
    Marked (.new (loadCassettes units), []) := by
  refine ⟨?_, ?_⟩
  · intro u _ hjams
    cases hjams
  · intro u hu
    exact h u (mem_loadCassettes hu)

/-- From any table without an inoperative cassette that holds notes, in every state of every run
that refills no cassette before its jam is cleared, notes leave only the cassettes they may leave;
and all paths agree on these exactly if none of them stands behind another of its denomination. -/
theorem respects_iff_leading {units : List CashUnit} (hunits : NoneStopped units) {c : Jams}
    (hc : Runs.Reaches jamStep (fun c op => clearsFirst c op = true)
      (.new (loadCassettes units), []) c) : Respects c ↔ Leading c.1.cashUnits := by
  have hmarked : Marked c :=
    Runs.Reaches.invariant (fun c op c' h hok hstep => h.step hok hstep) (marked_loaded hunits) hc
  rw [← agree_iff_leading hmarked.working]
  constructor
  · intro h
    exact h.agree
  · intro hagree
    exact ⟨fun payload r s' hr u hu u' hu' hid hless => hmarked.taken hr hu hu' hid hless, hagree⟩

/-- A jam is cleared, and the cassette refilled after that. -/
def clearedAndRefilled : List CdmOp := [.jam "CASS1", .clearJam "CASS1", .replenish "CASS1" 300]

theorem respects_iff_leading_refilled :
    ∃ c, Runs.exec jamStep (.new (loadCassettes initializeCassettes.values), [])
      clearedAndRefilled = some c ∧ (Respects c ↔ Leading c.1.cashUnits) := by
  have hrun : (Runs.exec jamStep (.new (loadCassettes initializeCassettes.values), [])
      clearedAndRefilled).isSome = true := by decide +kernel
  obtain ⟨c, hc⟩ := Option.isSome_iff_exists.mp hrun
  have hworking : NoneStopped initializeCassettes.values := by
    intro u hu _ hstopped
    simp only [initializeCassettes, List.mem_cons, List.not_mem_nil, or_false] at hu
    rcases hu with rfl | rfl | rfl | rfl <;> cases hstopped
  have halong : Runs.Along jamStep (fun c op => clearsFirst c op = true)
      (.new (loadCassettes initializeCassettes.values), []) clearedAndRefilled := by
    decide +kernel
  exact ⟨c, hc, respects_iff_leading hworking ⟨_, halong, hc⟩⟩

/-- One cassette that is out of order. -/
def stoppedCassette : List CashUnit := [⟨"CASS1", 100000, .inoperative, 10, 10, 2500, 5⟩]

def hundred : CdmDispensePayload :=
  ⟨.ofInt 100000, .custom, some [("100000", .ofInt 1)], true⟩

/-- A custom mix takes a note from a cassette that is inoperative, and a refill makes a jammed
cassette pay. -/
theorem forbidden_notes_taken :
    ¬ Respects (.new (loadCassettes stoppedCassette), []) ∧
      ∃ c, Runs.exec jamStep (.new initializeCassettes, []) [.jam "CASS1", .replenish "CASS1" 300] =
        some c ∧ ¬ Respects c := by
  constructor
  · intro h
    let s : CdmDeviceService := .new (loadCassettes stoppedCassette)
    have hbefore : ⟨"CASS1", 100000, .inoperative, 10, 10, 2500, 5⟩ ∈ s.cashUnits.values := by
      decide
    have hafter : ⟨"CASS1", 100000, .inoperative, 9, 10, 2500, 5⟩ ∈
        (executeCommand s (.dispense hundred)).2.cashUnits.values := by decide +kernel
    have htaken := h.taken hundred _ _ (Prod.eta _).symm _ hbefore _ hafter rfl (by decide)
    exact htaken.2.1 rfl
  · have hrun : (Runs.exec jamStep (.new initializeCassettes, [])
        [.jam "CASS1", .replenish "CASS1" 300]).any (fun c => "CASS1" ∈ c.2 ∧
          ⟨"CASS1", 100000, .ok, 300, 500, 2500, 50⟩ ∈ c.1.cashUnits.values ∧
          ⟨"CASS1", 100000, .ok, 299, 500, 2500, 50⟩ ∈
            (executeCommand c.1 (.dispense hundred)).2.cashUnits.values) = true := by
      decide +kernel
    obtain ⟨c, hc, hend⟩ := (Option.any_eq_true ..).mp hrun
    obtain ⟨hjammed, hbefore, hafter⟩ := of_decide_eq_true hend
    refine ⟨c, hc, ?_⟩
    intro h
    have htaken := h.taken hundred _ _ (Prod.eta _).symm _ hbefore _ hafter rfl (by decide)
    exact htaken.2.2 hjammed

end AtmXfs.Cdm
