import AtmXfs.Lib.JsString
import Mathlib.Data.List.Nodup

namespace AtmXfs.Suite

open Js

def trim (s : Text) : Text := Text.trimEnd (s.dropWhile isSpaceUnit)

/-- The fields of `s.split(/\s+/)` for a trimmed `s`; the one field of an empty string is
left out. -/
def cronFields (s : Text) : List Text := (s.splitOnP isSpaceUnit).filter (· ≠ [])

/-- What the controller stores for a `cron` that is a string; `none` clears it. -/
def validateCron (v : Text) : Except Text (Option Text) :=
  if v.length = 0 then .ok none
  else if (cronFields (trim v)).length ≠ 5 then
    .error (utf16 "cron must be a 5-field cron expression")
  else .ok (some (trim v))

/-- A row as the controller can store it; its name and its macros play no part here. -/
structure MacroSuite where
  id : Text
  cron : Option Text
  enabled : Bool
  stored : ∀ c ∈ cron, ∃ v, validateCron v = .ok (some c)

theorem MacroSuite.cron_ne_nil (s : MacroSuite) {c : Text} (hc : s.cron = some c) : c ≠ [] := by
  obtain ⟨v, hv⟩ := s.stored c hc
  unfold validateCron at hv
  split_ifs at hv with hlength hfields
  · cases hv
  · rintro rfl
    have htrim : trim v = [] := Option.some.inj (Except.ok.inj hv)
    rw [htrim] at hfields
    exact hfields (by decide)

/-- The table of suites; the id is its primary key. -/
structure Suites where
  rows : List MacroSuite
  ids : (rows.map (·.id)).Nodup

def jobIdFor (suiteId : Text) : Text := utf16 "suite-" ++ suiteId

/-- A repeatable as `getRepeatableJobs` lists it; one without a pattern has an interval. -/
structure Repeatable where
  name : Text
  id : Option Text
  pattern : Option Text
  deriving DecidableEq

namespace Repeatable

/-- `r.id ?? r.name`. -/
def jobKey (r : Repeatable) : Text := r.id.getD r.name

/-- What the queue tells repeatables apart by. -/
def identity (r : Repeatable) : Text × Option Text := (r.jobKey, r.pattern)

end Repeatable

/-- The repeatables of the queue. -/
structure Repeatables where
  jobs : List Repeatable
  distinct : (jobs.map Repeatable.identity).Nodup

namespace Repeatables

def identities (q : Repeatables) : List (Text × Option Text) := q.jobs.map Repeatable.identity

def removeRepeatableByKey (q : Repeatables) (key : Text × Option Text) : Repeatables where
  jobs := q.jobs.filter (·.identity ≠ key)
  distinct := q.distinct.sublist (List.filter_sublist.map _)

/-- What `queue.add` leaves for a pattern that the queue can read. -/
def add (q : Repeatables) (id cron : Text) : Repeatables where
  jobs := if (id, some cron) ∈ q.identities then q.jobs else q.jobs ++ [⟨id, some id, some cron⟩]
  distinct := by
    split_ifs with h
    · exact q.distinct
    · rw [List.map_append, List.nodup_append]
      refine ⟨q.distinct, List.nodup_singleton _, fun a ha b hb => ?_⟩
      rw [List.map_singleton, List.mem_singleton] at hb
      rintro rfl
      rw [hb] at ha
      exact h ha

end Repeatables

/-- The entries of the map `wanted`; as the ids are distinct, none replaces another. -/
def wanted (suites : Suites) : List (Text × Text) :=
  (suites.rows.filter (·.enabled)).filterMap fun s =>
    (s.cron.filter (· ≠ [])).map fun c => (jobIdFor s.id, c)

def removeStale (ids : List Text) (q : Repeatables) : Repeatables :=
  q.jobs.foldl (fun q r =>
    if r.jobKey ≠ [] ∧ r.jobKey ∉ ids then q.removeRepeatableByKey r.identity else q) q

/-- The loop of `queue.add`; `accepts` says what the queue can read. A pattern that it cannot
read is thrown, and ends the loop. -/
def addWanted (accepts : Text → Bool) : List (Text × Text) → Repeatables →
    Repeatables × Option Text
  | [], q => (q, none)
  | (id, cron) :: rest, q =>
    if accepts cron then addWanted accepts rest (q.add id cron) else (q, some cron)

/-- `syncRepeatables` of a scheduler that has its queue. -/
def syncRepeatables (accepts : Text → Bool) (suites : Suites) (existing : Repeatables) :
    Repeatables × Option Text :=
  addWanted accepts (wanted suites) (removeStale ((wanted suites).map (·.1)) existing)

/-- One repeatable for each enabled suite with a cron that the queue accepts. -/
def targets (accepts : Text → Bool) (suites : Suites) : List (Text × Option Text) :=
  (suites.rows.filter (·.enabled)).filterMap fun s =>
    (s.cron.filter accepts).map fun c => (jobIdFor s.id, some c)

/-- The queue holds the targets, each once, and nothing else. -/
def Synced (accepts : Text → Bool) (suites : Suites) (q : Repeatables) : Prop :=
  q.identities.Perm (targets accepts suites)

theorem jobIdFor_injective {a b : Text} (h : jobIdFor a = jobIdFor b) : a = b :=
  List.append_cancel_left h

namespace Repeatables

theorem mem_remove {q : Repeatables} {key x : Text × Option Text} :
    x ∈ (q.removeRepeatableByKey key).identities ↔ x ∈ q.identities ∧ x ≠ key := by
  simp only [identities, removeRepeatableByKey, List.mem_map, List.mem_filter, decide_eq_true_eq]
  constructor
  · rintro ⟨r, ⟨hr, hne⟩, rfl⟩
    exact ⟨⟨r, hr, rfl⟩, hne⟩
  · rintro ⟨⟨r, hr, rfl⟩, hne⟩
    exact ⟨r, ⟨hr, hne⟩, rfl⟩

theorem mem_add {q : Repeatables} {id cron : Text} {x : Text × Option Text} :
    x ∈ (q.add id cron).identities ↔ x ∈ q.identities ∨ x = (id, some cron) := by
  unfold add identities
  simp only
  split_ifs with h
  · constructor
    · exact Or.inl
    · rintro (hx | rfl)
      · exact hx
      · exact h
  · rw [List.map_append, List.mem_append, List.map_singleton, List.mem_singleton]
    rfl

end Repeatables

/-- Every stale repeatable of the list that is gone through is removed, and no other. -/
theorem mem_removeStale (ids : List Text) (q : Repeatables) (x : Text × Option Text) :
    x ∈ (removeStale ids q).identities ↔ x ∈ q.identities ∧ (x.1 = [] ∨ x.1 ∈ ids) := by
  have hfold : ∀ (jobs : List Repeatable) (p : Repeatables),
      x ∈ (jobs.foldl (fun q r => if r.jobKey ≠ [] ∧ r.jobKey ∉ ids then
        q.removeRepeatableByKey r.identity else q) p).identities ↔
      x ∈ p.identities ∧ (x ∈ jobs.map Repeatable.identity → x.1 = [] ∨ x.1 ∈ ids) := by
    intro jobs
    induction jobs with
    | nil => simp
    | cons r rest ih =>
      intro p
      rw [List.foldl_cons, ih, List.map_cons, List.mem_cons]
      split_ifs with hstale
      · rw [Repeatables.mem_remove]
        constructor
        · rintro ⟨⟨hp, hne⟩, hrest⟩
          exact ⟨hp, fun h => hrest (h.resolve_left hne)⟩
        · rintro ⟨hp, hrest⟩
          refine ⟨⟨hp, ?_⟩, fun h => hrest (Or.inr h)⟩
          rintro rfl
          rcases hrest (Or.inl rfl) with hnil | hids
          · exact hstale.1 hnil
          · exact hstale.2 hids
      · constructor
        · rintro ⟨hp, hrest⟩
          refine ⟨hp, ?_⟩
          rintro (rfl | h)
          · by_contra hnot
            rw [not_or] at hnot
            exact hstale hnot
          · exact hrest h
        · rintro ⟨hp, hrest⟩
          exact ⟨hp, fun h => hrest (Or.inr h)⟩
  rw [removeStale, hfold]
  constructor
  · rintro ⟨hq, hkeep⟩
    exact ⟨hq, hkeep hq⟩
  · rintro ⟨hq, hkeep⟩
    exact ⟨hq, fun _ => hkeep⟩

section
variable (accepts : Text → Bool)

theorem mem_addWanted (wanted : List (Text × Text)) (q : Repeatables) (x : Text × Option Text) :
    x ∈ (addWanted accepts wanted q).1.identities ↔
      x ∈ q.identities ∨ ∃ w ∈ wanted.takeWhile (accepts ·.2), x = (w.1, some w.2) := by
  induction wanted generalizing q with
  | nil => simp [addWanted]
  | cons w rest ih =>
    obtain ⟨id, cron⟩ := w
    by_cases h : accepts cron = true
    · simp only [addWanted, h, if_true, ih, Repeatables.mem_add, List.takeWhile_cons,
        List.exists_mem_cons_iff, or_assoc]
    · simp [addWanted, h]

theorem mem_wanted {suites : Suites} {w : Text × Text} :
    w ∈ wanted suites ↔
      ∃ s ∈ suites.rows, s.enabled = true ∧ w.1 = jobIdFor s.id ∧ s.cron = some w.2 := by
  obtain ⟨id, cron⟩ := w
  simp only [wanted, List.mem_filterMap, List.mem_filter, Option.map_eq_some_iff,
    Option.filter_eq_some_iff, Prod.mk.injEq, decide_eq_true_eq]
  constructor
  · rintro ⟨s, ⟨hs, henabled⟩, c, ⟨hc, -⟩, rfl, rfl⟩
    exact ⟨s, hs, henabled, rfl, hc⟩
  · rintro ⟨s, hs, henabled, rfl, hc⟩
    exact ⟨s, ⟨hs, henabled⟩, cron, ⟨hc, s.cron_ne_nil hc⟩, rfl, rfl⟩

theorem mem_targets {suites : Suites} {x : Text × Option Text} :
    x ∈ targets accepts suites ↔
      ∃ w ∈ wanted suites, accepts w.2 = true ∧ x = (w.1, some w.2) := by
  simp only [targets, List.mem_filterMap, List.mem_filter, Option.map_eq_some_iff,
    Option.filter_eq_some_iff]
  constructor
  · rintro ⟨s, ⟨hs, henabled⟩, c, ⟨hc, haccepts⟩, rfl⟩
    exact ⟨(jobIdFor s.id, c), mem_wanted.mpr ⟨s, hs, henabled, rfl, hc⟩, haccepts, rfl⟩
  · rintro ⟨w, hw, haccepts, rfl⟩
    obtain ⟨s, hs, henabled, hid, hc⟩ := mem_wanted.mp hw
    exact ⟨s, ⟨hs, henabled⟩, w.2, ⟨hc, haccepts⟩, by rw [hid]⟩

end

/-- What is made of a suite's own id is made once. -/
theorem Suites.nodup_filterMap {β : Type} (suites : Suites) {f : MacroSuite → Option β}
    (hf : ∀ s s' x, f s = some x → f s' = some x → s.id = s'.id) :
    ((suites.rows.filter (·.enabled)).filterMap f).Nodup := by
  have hrows : (suites.rows.filter (·.enabled)).Pairwise (fun s s' => s.id ≠ s'.id) :=
    (List.pairwise_map.mp suites.ids).sublist List.filter_sublist
  refine hrows.filterMap _ fun s s' hne x hx y hy => ?_
  rintro rfl
  exact hne (hf s s' x hx hy)

theorem wanted_nodup (suites : Suites) : (wanted suites).Nodup := by
  refine suites.nodup_filterMap fun s s' x hx hx' => ?_
  obtain ⟨c, -, rfl⟩ := Option.map_eq_some_iff.mp hx
  obtain ⟨c', -, heq⟩ := Option.map_eq_some_iff.mp hx'
  exact jobIdFor_injective (Prod.ext_iff.mp heq).1.symm

section
variable (accepts : Text → Bool)

theorem targets_nodup (suites : Suites) : (targets accepts suites).Nodup := by
  refine suites.nodup_filterMap fun s s' x hx hx' => ?_
  obtain ⟨c, -, rfl⟩ := Option.map_eq_some_iff.mp hx
  obtain ⟨c', -, heq⟩ := Option.map_eq_some_iff.mp hx'
  exact jobIdFor_injective (Prod.ext_iff.mp heq).1.symm

/-- The entries before the first pattern that the queue cannot read, and the others. -/
theorem wanted_split (suites : Suites) :
    (wanted suites).takeWhile (accepts ·.2) ++ (wanted suites).dropWhile (accepts ·.2) =
      wanted suites :=
  List.takeWhile_append_dropWhile

theorem synced_iff_mem {suites : Suites} {q : Repeatables} :
    Synced accepts suites q ↔ ∀ x, x ∈ q.identities ↔ x ∈ targets accepts suites :=
  List.perm_ext_iff_of_nodup q.distinct (targets_nodup accepts suites)

/-- What is left of the queue: the repeatables that were not stale, and the ones that were
added before the first pattern that the queue cannot read. -/
theorem mem_syncRepeatables (suites : Suites) (existing : Repeatables)
    (x : Text × Option Text) :
    x ∈ (syncRepeatables accepts suites existing).1.identities ↔
      (x ∈ existing.identities ∧ (x.1 = [] ∨ x.1 ∈ (wanted suites).map (·.1))) ∨
        ∃ w ∈ (wanted suites).takeWhile (accepts ·.2), x = (w.1, some w.2) := by
  rw [syncRepeatables, mem_addWanted, mem_removeStale]

end

/-- The queue is in step with the table if no repeatable that stays has an old pattern, and if
no suite that comes after an unreadable pattern was still to be added. -/
theorem syncRepeatables_synced (accepts : Text → Bool) (suites : Suites)
    (existing : Repeatables) :
    Synced accepts suites (syncRepeatables accepts suites existing).1 ↔
      (∀ r ∈ existing.jobs, r.jobKey = [] ∨ r.jobKey ∈ (wanted suites).map (·.1) →
        r.identity ∈ targets accepts suites) ∧
      ∀ w ∈ (wanted suites).dropWhile (accepts ·.2), accepts w.2 = true →
        (w.1, some w.2) ∈ existing.identities := by
  rw [synced_iff_mem]
  constructor
  · intro hsynced
    constructor
    · intro r hr hkept
      refine (hsynced r.identity).mp ((mem_syncRepeatables ..).mpr (Or.inl ⟨?_, hkept⟩))
      exact List.mem_map_of_mem hr
    · intro w hw haccepts
      have hwanted : w ∈ wanted suites := (List.dropWhile_sublist _).mem hw
      have htarget : (w.1, some w.2) ∈ targets accepts suites :=
        (mem_targets accepts).mpr ⟨w, hwanted, haccepts, rfl⟩
      rcases (mem_syncRepeatables ..).mp ((hsynced _).mpr htarget) with hleft | ⟨v, hv, heq⟩
      · exact hleft.1
      · -- an entry of the map is on one side of the first unreadable pattern only
        have hvw : w = v := Prod.ext (Prod.ext_iff.mp heq).1
          (Option.some.inj (Prod.ext_iff.mp heq).2)
        have hnodup := wanted_nodup suites
        rw [← wanted_split accepts] at hnodup
        exact absurd hw (List.disjoint_of_nodup_append hnodup (hvw ▸ hv))
  · rintro ⟨hkept, hlater⟩ x
    rw [mem_syncRepeatables]
    constructor
    · rintro (⟨hx, hstays⟩ | ⟨w, hw, rfl⟩)
      · obtain ⟨r, hr, rfl⟩ := List.mem_map.mp hx
        exact hkept r hr hstays
      · exact (mem_targets accepts).mpr ⟨w, (List.takeWhile_sublist _).mem hw,
          List.mem_takeWhile_imp (p := fun w : Text × Text => accepts w.2) hw, rfl⟩
    · intro hx
      obtain ⟨w, hw, haccepts, rfl⟩ := (mem_targets accepts).mp hx
      rw [← wanted_split accepts, List.mem_append] at hw
      rcases hw with hbefore | hafter
      · exact Or.inr ⟨w, hbefore, rfl⟩
      · refine Or.inl ⟨hlater w hafter haccepts, Or.inr ?_⟩
        exact List.mem_map_of_mem ((List.dropWhile_sublist _).mem hafter)

/-- The suite `a`, every day at two. -/
def twoDaily : Suites where
  rows := [⟨utf16 "a", some (utf16 "0 2 * * *"), true, fun c hc =>
    ⟨utf16 "0 2 * * *", by rw [← Option.mem_some.mp hc]; decide⟩⟩]
  ids := List.nodup_singleton _

/-- It was at one before. -/
def atOne : Repeatables where
  jobs := [⟨utf16 "suite-a", some (utf16 "suite-a"), some (utf16 "0 1 * * *")⟩]
  distinct := List.nodup_singleton _

/-- The old pattern of an edited suite stays beside the new one. -/
theorem old_pattern_stays :
    (syncRepeatables (fun _ => true) twoDaily atOne).1.identities =
        [(utf16 "suite-a", some (utf16 "0 1 * * *")),
          (utf16 "suite-a", some (utf16 "0 2 * * *"))] ∧
      ¬ Synced (fun _ => true) twoDaily (syncRepeatables (fun _ => true) twoDaily atOne).1 := by
  have hleft : (syncRepeatables (fun _ => true) twoDaily atOne).1.identities =
      [(utf16 "suite-a", some (utf16 "0 1 * * *")),
        (utf16 "suite-a", some (utf16 "0 2 * * *"))] := by decide
  refine ⟨hleft, fun hsynced => ?_⟩
  have hlength := hsynced.length_eq
  rw [hleft] at hlength
  exact absurd hlength (by decide)

end AtmXfs.Suite
