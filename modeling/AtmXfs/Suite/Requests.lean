import AtmXfs.Lib.Json
import AtmXfs.Lib.Observers
import AtmXfs.Suite.Repeatables

namespace AtmXfs.Suite

open Js

/-- The members of a request's body that are read; a missing one is `undefined`. -/
structure SuiteBody where
  name : Option Json
  macroIds : Option Json
  cron : Option Json
  enabled : Option Json

/-- What a request is refused with; `database` is what the database throws. -/
inductive Refusal where
  | badRequest (message : Text)
  | notFound (message : Text)
  | database
  deriving DecidableEq

def optionalString (v : Option Json) (field : Text) (max : Nat) : Except Refusal (Option Text) :=
  match v with
  | none => .ok none
  | some .null => .ok none
  | some (.str s) =>
    if s.length > max then
      .error (.badRequest (field ++ utf16 " must be a string ≤ " ++ decimal max ++ utf16 " chars"))
    else .ok (some s)
  | some _ =>
    .error (.badRequest (field ++ utf16 " must be a string ≤ " ++ decimal max ++ utf16 " chars"))

def requireString (v : Option Json) (field : Text) (max : Nat) : Except Refusal Text :=
  match optionalString v field max with
  | .error e => .error e
  | .ok none => .error (.badRequest (field ++ utf16 " is required"))
  | .ok (some s) =>
    if s = [] then .error (.badRequest (field ++ utf16 " is required")) else .ok s

def textOf : Json → Option Text
  | .str s => some s
  | _ => none

def optionalStringArray (v : Option Json) (field : Text) : Except Refusal (Option (List Text)) :=
  match v with
  | none => .ok none
  | some .null => .ok none
  | some (.arr items) =>
    match items.mapM textOf with
    | some texts => .ok (some texts)
    | none => .error (.badRequest (field ++ utf16 " must be a string[]"))
  | some _ => .error (.badRequest (field ++ utf16 " must be a string[]"))

def optionalBool (v : Option Json) (field : Text) : Except Refusal (Option Bool) :=
  match v with
  | none => .ok none
  | some .null => .ok none
  | some (.bool b) => .ok (some b)
  | some _ => .error (.badRequest (field ++ utf16 " must be a boolean"))

/-- A `cron` as the table can hold it. -/
abbrev StoredCron := {cron : Option Text // ∀ c ∈ cron, ∃ v, validateCron v = .ok (some c)}

/-- `validateCron` on any value, with `undefined` and `null` for a cleared cron. -/
def cronOf (v : Option Json) : Except Refusal StoredCron :=
  match v with
  | none => .ok ⟨none, nofun⟩
  | some .null => .ok ⟨none, nofun⟩
  | some (.str s) =>
    match h : validateCron s with
    | .ok cron => .ok ⟨cron, fun c hc => ⟨s, by rw [h, Option.mem_def.mp hc]⟩⟩
    | .error message => .error (.badRequest message)
  | some _ => .error (.badRequest (utf16 "cron must be a string"))

structure SuiteRow where
  suite : MacroSuite
  name : Text
  macroIds : List Text

/-- The table of suites; an id and a name stand in one row only. -/
structure SuiteTable where
  rows : List SuiteRow
  ids : (rows.map (·.suite.id)).Nodup
  names : (rows.map (·.name)).Nodup

namespace SuiteTable

/-- The rows that a write leaves, if the database takes them. -/
def write (rows : List SuiteRow) : Except Refusal SuiteTable :=
  if h : (rows.map (·.suite.id)).Nodup ∧ (rows.map (·.name)).Nodup then .ok ⟨rows, h.1, h.2⟩
  else .error .database

def suites (t : SuiteTable) : Suites where
  rows := t.rows.map (·.suite)
  ids := by
    rw [List.map_map]
    exact t.ids

/-- When a suite is to be run, if it is. -/
def scheduled (t : SuiteTable) (id : Text) : Option Text :=
  (t.rows.find? (·.suite.id = id)).bind fun row =>
    if row.suite.enabled then row.suite.cron else none

end SuiteTable

/-- The row that `create` inserts; the database makes the id. -/
def newRow (id : Text) (body : SuiteBody) : Except Refusal SuiteRow :=
  match requireString body.name (utf16 "name") 200 with
  | .error e => .error e
  | .ok name =>
    match optionalStringArray body.macroIds (utf16 "macroIds") with
    | .error e => .error e
    | .ok macroIds =>
      match cronOf body.cron with
      | .error e => .error e
      | .ok cron =>
        match optionalBool body.enabled (utf16 "enabled") with
        | .error e => .error e
        | .ok enabled =>
          .ok ⟨⟨id, cron.1, enabled.getD true, cron.2⟩, name, macroIds.getD []⟩

/-- The `data` of an update; a column that is `undefined` stays as it is. -/
structure SuitePatch where
  name : Option Text
  macroIds : Option (List Text)
  cron : Option StoredCron
  enabled : Option Bool

/-- A member that is not `undefined` is checked. -/
def given {α : Type} (check : Option Json → Except Refusal α) :
    Option Json → Except Refusal (Option α)
  | none => .ok none
  | some v => (check (some v)).map some

def patchOf (body : SuiteBody) : Except Refusal SuitePatch :=
  match given (fun v => requireString v (utf16 "name") 200) body.name with
  | .error e => .error e
  | .ok name =>
    match given (fun v => optionalStringArray v (utf16 "macroIds")) body.macroIds with
    | .error e => .error e
    | .ok macroIds =>
      match given cronOf body.cron with
      | .error e => .error e
      | .ok cron =>
        match given (fun v => optionalBool v (utf16 "enabled")) body.enabled with
        | .error e => .error e
        | .ok enabled => .ok ⟨name, macroIds.join, cron, enabled.join⟩

def SuitePatch.apply (p : SuitePatch) (row : SuiteRow) : SuiteRow :=
  let cron := p.cron.getD ⟨row.suite.cron, row.suite.stored⟩
  ⟨⟨row.suite.id, cron.1, p.enabled.getD row.suite.enabled, cron.2⟩, p.name.getD row.name,
    p.macroIds.getD row.macroIds⟩

/-- What is asked of the controller, and the start of the server. -/
inductive SuiteRequest where
  | create (id : Text) (body : SuiteBody)
  | update (id : Text) (body : SuiteBody)
  | remove (id : Text)
  | onModuleInit

/-- The table a request leaves before the scheduler is called. -/
def SuiteTable.change (t : SuiteTable) : SuiteRequest → Except Refusal SuiteTable
  | .create id body =>
    match newRow id body with
    | .error e => .error e
    | .ok row => write (t.rows ++ [row])
  | .update id body =>
    if t.rows.any (·.suite.id = id) then
      match patchOf body with
      | .error e => .error e
      | .ok patch =>
        write (t.rows.map fun row => if row.suite.id = id then patch.apply row else row)
    else .error (.notFound (utf16 "suite " ++ id ++ utf16 " not found"))
  | .remove id =>
    if t.rows.any (·.suite.id = id) then write (t.rows.filter (·.suite.id ≠ id))
    else .error .database
  | .onModuleInit => .ok t

/-- The table and the queue. -/
structure Scheduling where
  table : SuiteTable
  queue : Repeatables

/-- How a request ends: done, refused, or with a pattern that the queue throws on. -/
inductive SuiteAnswer where
  | done
  | refused (refusal : Refusal)
  | threw (cron : Text)
  deriving DecidableEq

/-- A request with the scheduler up; `findMany` lists the table. -/
def Scheduling.handle (accepts : Text → Bool) (findMany : SuiteTable → Suites) (st : Scheduling)
    (request : SuiteRequest) : SuiteAnswer × Scheduling :=
  match st.table.change request with
  | .error e => (.refused e, st)
  | .ok table =>
    let (queue, thrown) := syncRepeatables accepts (findMany table) st.queue
    (thrown.elim .done .threw, ⟨table, queue⟩)

/-- The cron that a request stores, if it gets that far. -/
def SuiteRequest.cron? : SuiteRequest → Option Text
  | .create _ body => (cronOf body.cron).toOption.bind (·.1)
  | .update _ body => (cronOf body.cron).toOption.bind (·.1)
  | .remove _ => none
  | .onModuleInit => none

namespace SuiteTable

theorem rows_of_write {rows : List SuiteRow} {t : SuiteTable} (h : write rows = .ok t) :
    t.rows = rows := by
  unfold write at h
  split_ifs at h
  · cases h
    rfl

theorem scheduled_iff {t : SuiteTable} {id c : Text} :
    t.scheduled id = some c ↔
      ∃ row ∈ t.rows, row.suite.id = id ∧ row.suite.enabled = true ∧ row.suite.cron = some c := by
  rw [scheduled, Option.bind_eq_some_iff]
  constructor
  · rintro ⟨row, hfound, hcron⟩
    split_ifs at hcron with henabled
    exact ⟨row, List.mem_of_find?_eq_some hfound, by simpa using List.find?_some hfound, henabled,
      hcron⟩
  · rintro ⟨row, hrow, hid, henabled, hcron⟩
    have hsome : (t.rows.find? (·.suite.id = id)).isSome := by
      rw [List.find?_isSome]
      exact ⟨row, hrow, by simpa using hid⟩
    obtain ⟨found, hfound⟩ := Option.isSome_iff_exists.mp hsome
    have hfoundId : found.suite.id = id := by simpa using List.find?_some hfound
    obtain rfl : found = row := List.inj_on_of_nodup_map t.ids (List.mem_of_find?_eq_some hfound)
      hrow (hfoundId.trans hid.symm)
    exact ⟨found, hfound, by rw [if_pos henabled, hcron]⟩

end SuiteTable

section
variable (accepts : Text → Bool)

/-- The queue can read every pattern of the table. -/
def SuiteTable.Readable (t : SuiteTable) : Prop :=
  ∀ row ∈ t.rows, ∀ c ∈ row.suite.cron, accepts c = true

variable {accepts}

theorem newRow_cron {id : Text} {body : SuiteBody} {row : SuiteRow} (h : newRow id body = .ok row) :
    row.suite.cron = (cronOf body.cron).toOption.bind (·.1) := by
  unfold newRow at h
  cases hname : requireString body.name (utf16 "name") 200 with
  | error e => simp [hname] at h
  | ok name =>
    cases hmacros : optionalStringArray body.macroIds (utf16 "macroIds") with
    | error e => simp [hname, hmacros] at h
    | ok macroIds =>
      cases hcron : cronOf body.cron with
      | error e => simp [hname, hmacros, hcron] at h
      | ok cron =>
        cases henabled : optionalBool body.enabled (utf16 "enabled") with
        | error e => simp [hname, hmacros, hcron, henabled] at h
        | ok enabled =>
          simp only [hname, hmacros, hcron, henabled, Except.ok.injEq] at h
          rw [← h]
          rfl

theorem given_ok {α : Type} {check : Option Json → Except Refusal α} {v : Option Json} {a : α}
    (h : given check v = .ok (some a)) : check v = .ok a := by
  cases v with
  | none => cases h
  | some v =>
    rw [given] at h
    cases hv : check (some v) with
    | error e =>
      rw [hv] at h
      cases h
    | ok b =>
      rw [hv] at h
      cases h
      rfl

/-- The cron of an update is the one of its body, when the body has one. -/
theorem patchOf_cron {body : SuiteBody} {patch : SuitePatch} (h : patchOf body = .ok patch) :
    ∀ cron ∈ patch.cron, cron.1 = (cronOf body.cron).toOption.bind (·.1) := by
  unfold patchOf at h
  cases hname : given (fun v => requireString v (utf16 "name") 200) body.name with
  | error e => simp [hname] at h
  | ok name =>
    cases hmacros : given (fun v => optionalStringArray v (utf16 "macroIds")) body.macroIds with
    | error e => simp [hname, hmacros] at h
    | ok macroIds =>
      cases hcron : given cronOf body.cron with
      | error e => simp [hname, hmacros, hcron] at h
      | ok cron =>
        cases henabled : given (fun v => optionalBool v (utf16 "enabled")) body.enabled with
        | error e => simp [hname, hmacros, hcron, henabled] at h
        | ok enabled =>
          simp only [hname, hmacros, hcron, henabled, Except.ok.injEq] at h
          intro stored hstored
          rw [← h] at hstored
          rw [given_ok (hcron.trans (congrArg Except.ok hstored))]
          rfl

/-- A request whose cron the queue can read leaves a table that it can read. -/
theorem SuiteTable.Readable.change {t t' : SuiteTable} {request : SuiteRequest}
    (h : t.Readable accepts) (hok : ∀ c ∈ request.cron?, accepts c = true)
    (hchange : t.change request = .ok t') : t'.Readable accepts := by
  cases request with
  | create id body =>
    rw [SuiteTable.change] at hchange
    cases hrow : newRow id body with
    | error e => simp [hrow] at hchange
    | ok row =>
      rw [hrow] at hchange
      intro row' hrow' c hc
      rw [rows_of_write hchange] at hrow'
      rcases List.mem_append.mp hrow' with hold | hnew
      · exact h row' hold c hc
      · rw [List.mem_singleton.mp hnew, newRow_cron hrow] at hc
        exact hok c hc
  | update id body =>
    rw [SuiteTable.change] at hchange
    split_ifs at hchange
    cases hpatch : patchOf body with
    | error e => simp [hpatch] at hchange
    | ok patch =>
      rw [hpatch] at hchange
      intro row' hrow' c hc
      rw [rows_of_write hchange] at hrow'
      obtain ⟨row, hrow, rfl⟩ := List.mem_map.mp hrow'
      split_ifs at hc with hid
      · cases hcron : patch.cron with
        | none =>
          simp only [SuitePatch.apply, hcron, Option.getD_none] at hc
          exact h row hrow c hc
        | some cron =>
          simp only [SuitePatch.apply, hcron, Option.getD_some] at hc
          rw [patchOf_cron hpatch cron hcron] at hc
          exact hok c hc
      · exact h row hrow c hc
  | remove id =>
    rw [SuiteTable.change] at hchange
    split_ifs at hchange
    intro row hrow
    rw [rows_of_write hchange] at hrow
    exact h row (List.mem_of_mem_filter hrow)
  | onModuleInit =>
    cases hchange
    exact h

variable {findMany : SuiteTable → Suites}
  (hfind : ∀ t, (findMany t).rows.Perm (t.rows.map (·.suite)))

include hfind in
theorem mem_wanted_findMany {t : SuiteTable} {w : Text × Text} :
    w ∈ wanted (findMany t) ↔ ∃ id, t.scheduled id = some w.2 ∧ w.1 = jobIdFor id := by
  rw [mem_wanted]
  constructor
  · rintro ⟨s, hs, henabled, hid, hcron⟩
    obtain ⟨row, hrow, rfl⟩ := List.mem_map.mp ((hfind t).mem_iff.mp hs)
    exact ⟨_, SuiteTable.scheduled_iff.mpr ⟨row, hrow, rfl, henabled, hcron⟩, hid⟩
  · rintro ⟨id, hscheduled, hid⟩
    obtain ⟨row, hrow, rfl, henabled, hcron⟩ := SuiteTable.scheduled_iff.mp hscheduled
    exact ⟨row.suite, (hfind t).mem_iff.mpr (List.mem_map_of_mem hrow), henabled, hid, hcron⟩

namespace Scheduling

/-- The pattern is the one that the suite has now. -/
def Current (x : Text × Option Text) (st : Scheduling) : Prop :=
  ∃ id c, st.table.scheduled id = some c ∧ x = (jobIdFor id, some c)

/-- The repeatable is one of a suite that has a pattern. -/
def Live (x : Text × Option Text) (st : Scheduling) : Prop :=
  ∃ id, (st.table.scheduled id).isSome ∧ x.1 = jobIdFor id

theorem Current.live {x : Text × Option Text} {st : Scheduling} (h : Current x st) : Live x st := by
  obtain ⟨id, c, hscheduled, rfl⟩ := h
  exact ⟨id, by rw [hscheduled]; rfl, rfl⟩

/-- The queue has a repeatable for each suite that has a pattern, and for no other. -/
structure Covered (accepts : Text → Bool) (st : Scheduling) : Prop where
  readable : st.table.Readable accepts
  live : ∀ x ∈ st.queue.identities, Live x st
  current : ∀ x, Current x st → x ∈ st.queue.identities

include hfind in
/-- What a sync of a readable table leaves in the queue. -/
theorem mem_sync {table : SuiteTable} {queue : Repeatables} (hreadable : table.Readable accepts)
    (hqueue : ∀ x ∈ queue.identities, x.1 ≠ []) (x : Text × Option Text) :
    let st : Scheduling := ⟨table, (syncRepeatables accepts (findMany table) queue).1⟩
    x ∈ st.queue.identities ↔ x ∈ queue.identities ∧ Live x st ∨ Current x st := by
  intro st
  have hall : (wanted (findMany table)).takeWhile (accepts ·.2) = wanted (findMany table) := by
    rw [List.takeWhile_eq_self_iff]
    intro w hw
    obtain ⟨id, hscheduled, -⟩ := (mem_wanted_findMany hfind).mp hw
    obtain ⟨row, hrow, -, -, hcron⟩ := SuiteTable.scheduled_iff.mp hscheduled
    exact hreadable row hrow _ hcron
  have hkeys : x.1 ∈ (wanted (findMany table)).map (·.1) ↔ Live x st := by
    rw [List.mem_map]
    constructor
    · rintro ⟨w, hw, heq⟩
      obtain ⟨id, hscheduled, hid⟩ := (mem_wanted_findMany hfind).mp hw
      exact ⟨id, by rw [hscheduled]; rfl, heq.symm.trans hid⟩
    · rintro ⟨id, hsome, hid⟩
      obtain ⟨c, hc⟩ := Option.isSome_iff_exists.mp hsome
      exact ⟨(x.1, c), (mem_wanted_findMany hfind).mpr ⟨id, hc, hid⟩, rfl⟩
  rw [mem_syncRepeatables, hall, hkeys]
  constructor
  · rintro (⟨hold, hnil | hlive⟩ | ⟨w, hw, rfl⟩)
    · exact absurd hnil (hqueue x hold)
    · exact .inl ⟨hold, hlive⟩
    · obtain ⟨id, hscheduled, hid⟩ := (mem_wanted_findMany hfind).mp hw
      exact .inr ⟨id, w.2, hscheduled, by rw [hid]⟩
  · rintro (⟨hold, hlive⟩ | ⟨id, c, hscheduled, rfl⟩)
    · exact .inl ⟨hold, .inr hlive⟩
    · exact .inr ⟨(jobIdFor id, c), (mem_wanted_findMany hfind).mpr ⟨id, hscheduled, rfl⟩, rfl⟩

include hfind in
/-- A request keeps of the queue what is still live, and adds what is current. -/
theorem handle_spec {st : Scheduling} (h : st.Covered accepts) {request : SuiteRequest}
    (hok : ∀ c ∈ request.cron?, accepts c = true) :
    (st.handle accepts findMany request).2.Covered accepts ∧
      ∀ x, x ∈ (st.handle accepts findMany request).2.queue.identities ↔
        x ∈ st.queue.identities ∧ Live x (st.handle accepts findMany request).2 ∨
          Current x (st.handle accepts findMany request).2 := by
  cases hchange : st.table.change request with
  | error e =>
    simp only [handle, hchange]
    refine ⟨h, fun x => ⟨fun hx => .inl ⟨hx, h.live x hx⟩, ?_⟩⟩
    rintro (⟨hx, -⟩ | hcurrent)
    · exact hx
    · exact h.current x hcurrent
  | ok table =>
    have hqueue : ∀ x ∈ st.queue.identities, x.1 ≠ [] := by
      intro x hx
      obtain ⟨id, -, hid⟩ := h.live x hx
      rw [hid]
      exact List.append_ne_nil_of_left_ne_nil (by decide) _
    have hreadable := h.readable.change hok hchange
    have hsync := mem_sync hfind hreadable hqueue
    simp only [handle, hchange]
    refine ⟨⟨hreadable, fun x hx => ?_, fun x hx => (hsync x).mpr (.inr hx)⟩, hsync⟩
    rcases (hsync x).mp hx with ⟨-, hlive⟩ | hcurrent
    · exact hlive
    · exact hcurrent.live

/-- The state after a list of requests. -/
def after (accepts : Text → Bool) (findMany : SuiteTable → Suites) (st : Scheduling)
    (requests : List SuiteRequest) : Scheduling :=
  requests.foldl (fun st request => (st.handle accepts findMany request).2) st

include hfind in
/-- A suite has a repeatable of a pattern exactly if the pattern was the suite's at some point from
which on the suite was always to be run, under whatever patterns. -/
theorem registered_since {st : Scheduling} (hreadable : st.table.Readable accepts)
    (hsynced : Synced accepts (findMany st.table) st.queue) {requests : List SuiteRequest}
    (hok : ∀ request ∈ requests, ∀ c ∈ request.cron?, accepts c = true) (id c : Text) :
    (jobIdFor id, some c) ∈ (after accepts findMany st requests).queue.identities ↔
      ∃ before later, requests = before ++ later ∧
        (after accepts findMany st before).table.scheduled id = some c ∧
        ∀ mid, mid <+: later →
          ((after accepts findMany st (before ++ mid)).table.scheduled id).isSome := by
  have hstart : ∀ x, x ∈ st.queue.identities ↔ Current x st := by
    intro x
    rw [(synced_iff_mem accepts).mp hsynced, mem_targets]
    constructor
    · rintro ⟨w, hw, -, rfl⟩
      obtain ⟨i, hscheduled, hi⟩ := (mem_wanted_findMany hfind).mp hw
      exact ⟨i, w.2, hscheduled, by rw [hi]⟩
    · rintro ⟨i, d, hscheduled, rfl⟩
      obtain ⟨row, hrow, -, -, hcron⟩ := SuiteTable.scheduled_iff.mp hscheduled
      exact ⟨(jobIdFor i, d), (mem_wanted_findMany hfind).mpr ⟨i, hscheduled, rfl⟩,
        hreadable row hrow d hcron, rfl⟩
  have hcovered : st.Covered accepts :=
    ⟨hreadable, fun x hx => ((hstart x).mp hx).live, fun x hx => (hstart x).mpr hx⟩
  have hcovers : ∀ (st : Scheduling) request, st.Covered accepts →
      (∀ c ∈ request.cron?, accepts c = true) →
      (st.handle accepts findMany request).2.Covered accepts :=
    fun st request h hok => (handle_spec hfind h hok).1
  have hkept := Runs.kept_iff (fun st request => (st.handle accepts findMany request).2)
    (fun st => (jobIdFor id, some c) ∈ st.queue.identities) (Current (jobIdFor id, some c))
    (Live (jobIdFor id, some c)) (Covered accepts) (fun _ => Current.live) hcovers
    (fun st request h hok => (handle_spec hfind h hok).2 _) (hstart _) hcovered hok
  have hcurrent : ∀ st : Scheduling, Current (jobIdFor id, some c) st ↔
      st.table.scheduled id = some c := by
    intro st
    constructor
    · rintro ⟨i, d, hscheduled, heq⟩
      obtain ⟨hid, hd⟩ := Prod.ext_iff.mp heq
      rw [jobIdFor_injective hid, Option.some.inj hd]
      exact hscheduled
    · exact fun h => ⟨id, c, h, rfl⟩
  have hlive : ∀ st : Scheduling, Live (jobIdFor id, some c) st ↔
      (st.table.scheduled id).isSome := by
    intro st
    constructor
    · rintro ⟨i, hsome, hid⟩
      rw [jobIdFor_injective hid]
      exact hsome
    · exact fun h => ⟨id, h, rfl⟩
  simp only [hcurrent, hlive] at hkept
  exact hkept

def fresh : Scheduling := ⟨⟨[], List.nodup_nil, List.nodup_nil⟩, ⟨[], List.nodup_nil⟩⟩

/-- The suite `a` is created for one o'clock. -/
def createAtOne : SuiteRequest :=
  .create (utf16 "a") ⟨some (.str (utf16 "Nightly")), none, some (.str (utf16 "0 1 * * *")), none⟩

/-- It is moved to two o'clock. -/
def moveToTwo : SuiteRequest :=
  .update (utf16 "a") ⟨none, none, some (.str (utf16 "0 2 * * *")), none⟩

theorem registered_since_moved :
    (jobIdFor (utf16 "a"), some (utf16 "0 1 * * *")) ∈
      (after (fun _ => true) SuiteTable.suites fresh
        [createAtOne, moveToTwo]).queue.identities := by
  have hsynced : Synced (fun _ => true) fresh.table.suites fresh.queue := List.Perm.nil
  apply (registered_since (fun _ => List.Perm.refl _) (fun _ _ _ _ => rfl) hsynced
    (fun _ _ _ _ => rfl) (utf16 "a") (utf16 "0 1 * * *")).mpr
  refine ⟨[createAtOne], [moveToTwo], rfl, by decide +kernel, fun mid hmid => ?_⟩
  rcases List.prefix_cons_iff.mp hmid with rfl | ⟨rest, rfl, hrest⟩
  · decide +kernel
  · rw [List.prefix_nil.mp hrest]
    decide +kernel

end Scheduling

end

end AtmXfs.Suite
