import AtmXfs.Host.Listeners
import AtmXfs.Lib.Runs

namespace AtmXfs.Host

open Runs

/-- A database statement; each executes as a whole. -/
inductive Statement where
  | find (id : String)
  | sameKind (target : HostTransportConfig)
  | create (data : ConfigData)
  | write (id : String) (data : ConfigData)
  | setEnabled (id : String) (enabled : Bool)
  | delete (id : String)
  deriving DecidableEq

inductive Answer where
  | row (found : Option HostTransportConfig)
  | rows (found : List HostTransportConfig)
  | done
  deriving DecidableEq

/-- Execute a statement; `none` if it throws, because it names a row that is not there or a new
row takes an id that is. -/
def ConfigTable.execute (table : ConfigTable) (fresh : String) :
    Statement → Option (Answer × ConfigTable)
  | .find id => some (.row (table.find id), table)
  | .sameKind target =>
    some (.rows (table.rows.filter fun row => row.kind = target.kind ∧ row.id ≠ target.id), table)
  | .create data =>
    if h : table.find fresh = none then some (.done, table.insert ⟨data, fresh, false⟩ h) else none
  | .write id data => (table.find id).map fun _ => (.done, table.write id data)
  | .setEnabled id enabled => (table.find id).map fun _ => (.done, table.setEnabled id enabled)
  | .delete id => (table.find id).map fun _ => (.done, table.erase id)

/-- What a statement leaves of a row. -/
def Statement.leaves (row : HostTransportConfig) : Statement → Option HostTransportConfig
  | .write id data =>
    some (ConfigTable.overwritten id (fun old => { old with toConfigData := data }) row)
  | .setEnabled id enabled =>
    some (ConfigTable.overwritten id (fun old => { old with enabled }) row)
  | .delete id => if row.id = id then none else some row
  | _ => some row

theorem execute_find {table table' : ConfigTable} {fresh i : String} {q : Statement} {a : Answer}
    {row : HostTransportConfig} (h : table.execute fresh q = some (a, table'))
    (hrow : table.find i = some row) : table'.find i = q.leaves row := by
  have hrid := ConfigTable.find_id hrow
  cases q with
  | find id => cases h; exact hrow
  | sameKind target => cases h; exact hrow
  | create data =>
    rw [ConfigTable.execute] at h
    split_ifs at h
    cases h
    exact ConfigTable.find_insert hrow
  | write id data =>
    obtain ⟨_, _, heq⟩ := Option.map_eq_some_iff.mp h
    cases heq
    rw [ConfigTable.write, ConfigTable.find_modify, hrow]
    rfl
  | setEnabled id enabled =>
    obtain ⟨_, _, heq⟩ := Option.map_eq_some_iff.mp h
    cases heq
    rw [ConfigTable.setEnabled, ConfigTable.find_modify, hrow]
    rfl
  | delete id =>
    obtain ⟨_, _, heq⟩ := Option.map_eq_some_iff.mp h
    cases heq
    rw [Statement.leaves]
    split_ifs with hid
    · apply List.find?_eq_none.mpr
      intro old hold
      have hne := (ConfigTable.mem_erase.mp hold).2
      simpa [← hrid, hid] using hne
    · rw [ConfigTable.find_erase_other table (fun heq => hid (hrid.trans heq))]
      exact hrow

/-- What awaits a `stopConfig`. -/
inductive Caller where
  | controller
  | setActive (id : String) (peers : List HostTransportConfig)
  | delete (id : String)
  deriving DecidableEq

/-- The code behind an awaited statement. -/
inductive Next where
  | answer
  | update (id : String) (input : CreateOrUpdateHostTransportInput)
  | start (id : String)
  | stop (id : String) (caller : Caller)
  | cleared (row : HostTransportConfig) (caller : Caller)
  | activate (id : String)
  | toggle (id : String)
  | delete (id : String)
  deriving DecidableEq

/-- The await point at which a call stands. -/
inductive Call where
  | asked (q : Statement) (next : Next)
  | told (a : Answer) (next : Next)
  | starting (t : HostTransport)
  | started (t : HostTransport)
  | stopping (row : HostTransportConfig) (t : HostTransport) (caller : Caller)
  | stopped (row : HostTransportConfig) (caller : Caller)
  deriving DecidableEq

inductive Operation where
  | create (input : CreateOrUpdateHostTransportInput)
  | update (id : String) (input : CreateOrUpdateHostTransportInput)
  | startConfig (id : String)
  | stopConfig (id : String)
  | setActive (id : String)
  | delete (id : String)
  deriving DecidableEq

/-- The code before the first await; `none` if it throws. -/
def Operation.begin : Operation → Option Call
  | .create input =>
    match createData input with
    | .ok data => some (.asked (.create data) .answer)
    | .error _ => none
  | .update id input => some (.asked (.find id) (.update id input))
  | .startConfig id => some (.asked (.find id) (.start id))
  | .stopConfig id => some (.asked (.find id) (.stop id .controller))
  | .setActive id => some (.asked (.find id) (.activate id))
  | .delete id => some (.asked (.find id) (.delete id))

namespace HostTransportManagerService

/-- The loop of `setActive` up to its next await. -/
def stopNext (m : HostTransportManagerService) (id : String) : List HostTransportConfig → Call
  | [] => .asked (.find id) (.start id)
  | peer :: peers =>
    if m.has peer.id then .asked (.find peer.id) (.stop peer.id (.setActive id peers))
    else m.stopNext id peers

def resumeCaller (m : HostTransportManagerService) : Caller → Option Call
  | .controller => none
  | .setActive id peers => some (m.stopNext id peers)
  | .delete id => some (.asked (.delete id) .answer)

/-- The code between an answer of the database and the next await; the call is over where it
returns or throws. -/
def resume (ref : Nat) (m : HostTransportManagerService) : Next → Answer → Option Call
  | .update id input, .row (some existing) =>
    match updateData existing input with
    | .ok data => some (.asked (.write id data) .answer)
    | .error _ => none
  | .start id, .row (some row) =>
    if m.has id then none
    else
      match buildTransport ref row with
      | .ok t => some (.starting t)
      | .error _ => none
  | .stop id caller, .row (some row) =>
    match m.running id with
    | some t => some (.stopping row t caller)
    | none => some (.asked (.setEnabled id false) (.cleared row caller))
  | .cleared row caller, _ => if Known row.toConfigData then m.resumeCaller caller else none
  | .activate id, .row (some target) => some (.asked (.sameKind target) (.toggle id))
  | .toggle id, .rows peers => some (m.stopNext id peers)
  | .delete id, .row (some _) =>
    if m.has id then some (.asked (.find id) (.stop id (.delete id)))
    else some (.asked (.delete id) .answer)
  | _, _ => none

end HostTransportManagerService

/-- The service among its calls. `up` are the transports that have started and not stopped;
`built` counts the objects. -/
structure Listeners extends HostTransportManagerService where
  up : List HostTransport
  built : Nat
  calls : Nat → Option Call

inductive Move where
  | call (c : Nat) (op : Operation)
  | executes (c : Nat) (fresh : String)
  | settles (c : Nat)
  | fails (c : Nat)
  | resumes (c : Nat)
  deriving DecidableEq

/-- The call that a move belongs to. -/
def Move.caller : Move → Nat
  | .call c _ => c
  | .executes c _ => c
  | .settles c => c
  | .fails c => c
  | .resumes c => c

namespace Listeners

def put (s : Listeners) (c : Nat) (call : Option Call) : Listeners :=
  { s with calls := Function.update s.calls c call }

/-- An awaited statement, start or stop is rejected; no caller catches it. -/
def rejects (s : Listeners) (c : Nat) : Call → Option Listeners
  | .asked _ _ => some (s.put c none)
  | .starting _ => some (s.put c none)
  | .stopping _ _ _ => some (s.put c none)
  | _ => none

/-- An awaited statement is executed. -/
def executes (s : Listeners) (c : Nat) (fresh : String) : Call → Option Listeners
  | .asked q next =>
    match s.configs.execute fresh q with
    | some (a, table) => some ({ s with configs := table }.put c (some (.told a next)))
    | none => some (s.put c none)
  | _ => none

/-- An awaited start or stop succeeds. -/
def settles (s : Listeners) (c : Nat) : Call → Option Listeners
  | .starting t => some ({ s with up := t :: s.up }.put c (some (.started t)))
  | .stopping row t caller =>
    some ({ s with up := s.up.filter (· ≠ t) }.put c (some (.stopped row caller)))
  | _ => none

def setRunning (s : Listeners) (id : String) (t : Option HostTransport) : Listeners :=
  { s with running := Function.update s.running id t }

/-- A call goes on behind its await. -/
def resumes (s : Listeners) (c : Nat) : Call → Option Listeners
  | .told a next =>
    some ({ s with built := s.built + 1 }.put c
      (s.toHostTransportManagerService.resume s.built next a))
  | .started t =>
    some ((s.setRunning t.configId (some t)).put c
      (some (.asked (.setEnabled t.configId true) .answer)))
  | .stopped row caller =>
    some ((s.setRunning row.id none).put c
      (some (.asked (.setEnabled row.id false) (.cleared row caller))))
  | _ => none

def step (s : Listeners) : Move → Option Listeners
  | .call c op => if s.calls c = none then some (s.put c op.begin) else none
  | .executes c fresh => (s.calls c).bind (s.executes c fresh)
  | .settles c => (s.calls c).bind (s.settles c)
  | .fails c => (s.calls c).bind (s.rejects c)
  | .resumes c => (s.calls c).bind (s.resumes c)

/-- The service before its first call: any rows, nothing running. -/
def boot (configs : ConfigTable) : Listeners :=
  ⟨⟨configs, fun _ => none⟩, [], 0, fun _ => none⟩

/-- No call is in progress. -/
def Quiet (s : Listeners) : Prop := ∀ c, s.calls c = none

/-- A transport that has come up: it listens, `running` holds it, or a call is about to put it
there. -/
def Live (s : Listeners) (t : HostTransport) : Prop :=
  t ∈ s.up ∨ (∃ id, s.running id = some t) ∨ ∃ c, s.calls c = some (.started t)

/-- The call still has to set the flag of `id`. -/
def Enables (id : String) : Call → Prop
  | .started t => t.configId = id
  | .asked (.setEnabled i true) _ => i = id
  | _ => False

/-- A start of `id` has come up and not yet set the flag. -/
def Pending (s : Listeners) (id : String) : Prop :=
  ∃ c call, s.calls c = some call ∧ Enables id call

/-- The row of a transport that is up: it says what the transport was built from, and its flag
is set or about to be. -/
def Served (s : Listeners) (t : HostTransport) : Prop :=
  ∃ row, s.configs.find t.configId = some row ∧ Describes row.toConfigData t ∧
    (row.enabled = true ∨ s.Pending t.configId)

/-- A transport that listens or that `running` holds. -/
def Running (s : Listeners) (t : HostTransport) : Prop :=
  t ∈ s.up ∨ ∃ id, s.running id = some t

/-- Every running transport belongs to a stored and enabled row that says the same kind,
address, port and switch profile. -/
def Accurate (s : Listeners) : Prop :=
  ∀ t, s.Running t → ∃ row, s.configs.find t.configId = some row ∧ row.enabled = true ∧
    Describes row.toConfigData t

/-- When a statement that executes leaves the rows of the live transports what they are. -/
def Respects (s : Listeners) : Call → Prop
  | .asked (.write id data) _ => ∀ t, s.Live t → t.configId = id → Describes data t
  | .asked (.delete id) _ => ∀ t, s.Live t → t.configId ≠ id
  | .asked (.setEnabled id false) _ => ∀ t, s.Live t → t.configId = id → s.Pending id
  | _ => True

/-- When a rejected await leaves no live transport with its flag unset. -/
def MayFail (s : Listeners) (c : Nat) : Call → Prop
  | .asked (.setEnabled id true) _ => ∀ t, s.Live t → t.configId = id →
    (∃ row, s.configs.find id = some row ∧ row.enabled = true) ∨
      ∃ c' call, c' ≠ c ∧ s.calls c' = some call ∧ Enables id call
  | _ => True

/-- When a transport may come up: its row is stored and still says what it was built from. -/
def MaySettle (s : Listeners) : Call → Prop
  | .starting t => ∃ row, s.configs.find t.configId = some row ∧ Describes row.toConfigData t
  | _ => True

/-- The condition on a step. -/
def Orderly (s : Listeners) : Move → Prop
  | .executes c _ => ∀ call, s.calls c = some call → s.Respects call
  | .settles c => ∀ call, s.calls c = some call → s.MaySettle call
  | .fails c => ∀ call, s.calls c = some call → s.MayFail c call
  | _ => True

def Inv (s : Listeners) : Prop := ∀ t, s.Live t → s.Served t

theorem Inv.mono {s s' : Listeners} (hi : s.Inv) (hconfigs : s'.configs = s.configs)
    (hlive : ∀ t, s'.Live t → s.Live t) (hpending : ∀ id, s.Pending id → s'.Pending id) :
    s'.Inv := by
  intro t ht
  obtain ⟨row, hrow, hdesc, hflag⟩ := hi t (hlive t ht)
  refine ⟨row, ?_, hdesc, hflag.imp_right (hpending t.configId)⟩
  rw [hconfigs]
  exact hrow

theorem put_self (s : Listeners) (c : Nat) (call : Option Call) :
    (s.put c call).calls c = call := Function.update_self ..

theorem put_other {s : Listeners} {c i : Nat} {call : Option Call} (h : i ≠ c) :
    (s.put c call).calls i = s.calls i := Function.update_of_ne h ..

/-- A call that moves on keeps what is pending, if it keeps its own share of it. -/
theorem Pending.put {s s' : Listeners} {c : Nat} {old : Call} {call : Option Call} {id : String}
    (hp : s.Pending id) (hc : s.calls c = some old)
    (hcalls : s'.calls = Function.update s.calls c call)
    (hold : Enables id old → ∃ new, call = some new ∧ Enables id new) : s'.Pending id := by
  obtain ⟨i, at_i, hi, hen⟩ := hp
  by_cases heq : i = c
  · rw [heq, hc] at hi
    cases hi
    obtain ⟨new, hnew, hnen⟩ := hold hen
    refine ⟨c, new, ?_, hnen⟩
    rw [hcalls, Function.update_self]
    exact hnew
  · refine ⟨i, at_i, ?_, hen⟩
    rw [hcalls, Function.update_of_ne heq]
    exact hi

theorem Live.of_put {s s' : Listeners} {c : Nat} {call : Option Call} {t : HostTransport}
    (h : s'.Live t) (hup : ∀ u, u ∈ s'.up → u ∈ s.up)
    (hrunning : ∀ i u, s'.running i = some u → s.Live u)
    (hcalls : s'.calls = Function.update s.calls c call) (hc : call ≠ some (.started t)) :
    s.Live t := by
  obtain h | ⟨i, h⟩ | ⟨i, h⟩ := h
  · exact Or.inl (hup t h)
  · exact hrunning i t h
  · rw [hcalls] at h
    by_cases heq : i = c
    · rw [heq, Function.update_self] at h
      exact absurd h hc
    · rw [Function.update_of_ne heq] at h
      exact Or.inr (Or.inr ⟨i, h⟩)

/-- Where only the calls have changed, what is live was so before. -/
theorem Live.of_moved {s s' : Listeners} {c : Nat} {call : Option Call} {t : HostTransport}
    (h : s'.Live t) (hup : s'.up = s.up) (hrunning : s'.running = s.running)
    (hcalls : s'.calls = Function.update s.calls c call) (hc : call ≠ some (.started t)) :
    s.Live t := by
  apply h.of_put _ _ hcalls hc
  · intro u hu
    rw [hup] at hu
    exact hu
  · intro i u hu
    rw [hrunning] at hu
    exact Or.inr (Or.inl ⟨i, hu⟩)

/-- A call that moves on with nothing else changed. -/
theorem Inv.put {s : Listeners} (hi : s.Inv) {c : Nat} {old : Call} {call : Option Call}
    (hc : s.calls c = some old) (hnew : ∀ t, call ≠ some (.started t))
    (hold : ∀ id, ¬ Enables id old) : (s.put c call).Inv := by
  have hconfigs : (s.put c call).configs = s.configs := rfl
  refine hi.mono hconfigs ?_ ?_
  · intro t ht
    exact ht.of_moved rfl rfl rfl (hnew t)
  · intro id hp
    exact hp.put hc rfl (fun h => absurd h (hold id))

theorem stopNext_asked (m : HostTransportManagerService) (id : String)
    (peers : List HostTransportConfig) (t : HostTransport) : m.stopNext id peers ≠ .started t := by
  induction peers with
  | nil => exact fun h => by cases h
  | cons peer peers ih =>
    rw [HostTransportManagerService.stopNext]
    split_ifs with hrun
    · exact fun h => by cases h
    · exact ih

/-- Behind an answer of the database no call stands at a transport that has come up. -/
theorem resume_started (ref : Nat) (m : HostTransportManagerService) (next : Next) (a : Answer)
    (t : HostTransport) : m.resume ref next a ≠ some (.started t) := by
  intro h
  rw [HostTransportManagerService.resume.eq_def] at h
  split at h
  · split at h <;> cases h
  · split_ifs at h
    split at h <;> cases h
  · split at h <;> cases h
  · split_ifs at h
    rename_i caller _
    cases caller with
    | controller => cases h
    | setActive id peers => exact stopNext_asked m id peers t (Option.some.inj h)
    | delete id => cases h
  · cases h
  · exact stopNext_asked m _ _ t (Option.some.inj h)
  · split_ifs at h <;> cases h
  · cases h

theorem inv_call {s t : Listeners} {c : Nat} {op : Operation} (hi : s.Inv)
    (h : s.step (.call c op) = some t) : t.Inv := by
  simp only [step] at h
  split_ifs at h with hc
  cases h
  have hbegin : ∀ u, op.begin ≠ some (.started u) := by
    intro u hu
    cases op with
    | create input =>
      rw [Operation.begin] at hu
      split at hu <;> cases hu
    | _ => cases hu
  have hconfigs : (s.put c op.begin).configs = s.configs := rfl
  refine hi.mono hconfigs ?_ ?_
  · intro u hu
    exact hu.of_moved rfl rfl rfl (hbegin u)
  · intro id hp
    obtain ⟨i, call, hcall, hen⟩ := hp
    have hne : i ≠ c := by
      intro heq
      rw [heq, hc] at hcall
      cases hcall
    exact ⟨i, call, (put_other hne).trans hcall, hen⟩

/-- The flag of a live transport when a call leaves: set already, or still to be set by
another call. -/
theorem inv_leave {s : Listeners} {c : Nat} {old : Call} (hi : s.Inv)
    (hc : s.calls c = some old)
    (hflag : ∀ t, s.Live t → Enables t.configId old →
      (∃ row, s.configs.find t.configId = some row ∧ row.enabled = true) ∨
        ∃ c' call, c' ≠ c ∧ s.calls c' = some call ∧ Enables t.configId call) :
    (s.put c none).Inv := by
  intro t ht
  have hlive : s.Live t := ht.of_moved rfl rfl rfl (by simp)
  obtain ⟨row, hrow, hdesc, hset⟩ := hi t hlive
  refine ⟨row, hrow, hdesc, ?_⟩
  obtain hset | hpending := hset
  · exact Or.inl hset
  · obtain ⟨i, call, hcall, hen⟩ := hpending
    by_cases heq : i = c
    · rw [heq, hc] at hcall
      cases hcall
      obtain ⟨row', hrow', hset⟩ | ⟨c', call', hne, hcall', hen'⟩ := hflag t hlive hen
      · rw [hrow] at hrow'
        cases hrow'
        exact Or.inl hset
      · exact Or.inr ⟨c', call', (put_other hne).trans hcall', hen'⟩
    · exact Or.inr ⟨i, call, (put_other heq).trans hcall, hen⟩

theorem inv_fails {s t : Listeners} {c : Nat} (hi : s.Inv) (hok : s.Orderly (.fails c))
    (h : s.step (.fails c) = some t) : t.Inv := by
  obtain ⟨call, hc, hr⟩ := Option.bind_eq_some_iff.mp h
  have hmay := hok call hc
  cases call with
  | asked q next =>
    cases hr
    apply inv_leave hi hc
    intro u hu hen
    cases q with
    | setEnabled id enabled =>
      cases enabled with
      | false => exact absurd hen (fun h => h)
      | true =>
        have hid : id = u.configId := hen
        rw [hid] at hmay
        exact hmay u hu rfl
    | _ => exact absurd hen (fun h => h)
  | starting u =>
    cases hr
    exact hi.put hc (fun _ h => by cases h) (fun _ h => h)
  | stopping row u caller =>
    cases hr
    exact hi.put hc (fun _ h => by cases h) (fun _ h => h)
  | _ => cases hr

theorem inv_settles {s t : Listeners} {c : Nat} (hi : s.Inv) (hok : s.Orderly (.settles c))
    (h : s.step (.settles c) = some t) : t.Inv := by
  obtain ⟨call, hc, hr⟩ := Option.bind_eq_some_iff.mp h
  have hmay := hok call hc
  cases call with
  | starting u =>
    cases hr
    have hkeep : ∀ id, s.Pending id →
        ({ s with up := u :: s.up }.put c (some (.started u))).Pending id :=
      fun id hp => hp.put hc rfl (fun h => absurd h (fun h => h))
    have hcalls : ({ s with up := u :: s.up }.put c (some (.started u))).calls c =
        some (.started u) := put_self ..
    intro v hv
    by_cases hvu : v = u
    · rw [hvu]
      obtain ⟨row, hrow, hdesc⟩ := hmay
      exact ⟨row, hrow, hdesc, Or.inr ⟨c, .started u, hcalls, rfl⟩⟩
    · have hlive : s.Live v := by
        obtain hup | hrun | ⟨i, hi'⟩ := hv
        · exact Or.inl (List.mem_of_ne_of_mem hvu hup)
        · exact Or.inr (Or.inl hrun)
        · by_cases hic : i = c
          · rw [hic, hcalls] at hi'
            cases hi'
            exact absurd rfl hvu
          · rw [put_other hic] at hi'
            exact Or.inr (Or.inr ⟨i, hi'⟩)
      obtain ⟨row, hrow, hdesc, hflag⟩ := hi v hlive
      exact ⟨row, hrow, hdesc, hflag.imp_right (hkeep v.configId)⟩
  | stopping row u caller =>
    cases hr
    have hconfigs : ({ s with up := s.up.filter (· ≠ u) }.put c
        (some (.stopped row caller))).configs = s.configs := rfl
    refine hi.mono hconfigs ?_ ?_
    · intro v hv
      exact hv.of_put (fun _ h => (List.mem_filter.mp h).1)
        (fun i w h => Or.inr (Or.inl ⟨i, h⟩)) rfl (by simp)
    · intro id hp
      exact hp.put hc rfl (fun h => absurd h (fun h => h))
  | _ => cases hr

theorem inv_resumes {s t : Listeners} {c : Nat} (hi : s.Inv)
    (h : s.step (.resumes c) = some t) : t.Inv := by
  obtain ⟨call, hc, hr⟩ := Option.bind_eq_some_iff.mp h
  cases call with
  | told a next =>
    cases hr
    have hnew := resume_started s.built s.toHostTransportManagerService next a
    refine hi.mono rfl ?_ ?_
    · intro v hv
      exact hv.of_moved rfl rfl rfl (hnew v)
    · intro id hp
      exact hp.put hc rfl (fun h => absurd h (fun h => h))
  | started u =>
    cases hr
    refine hi.mono rfl ?_ ?_
    · intro v hv
      refine hv.of_put (fun _ h => h) ?_ rfl (by simp)
      intro i w hw
      change Function.update s.running u.configId (some u) i = some w at hw
      by_cases hiu : i = u.configId
      · rw [hiu, Function.update_self] at hw
        cases hw
        exact Or.inr (Or.inr ⟨c, hc⟩)
      · rw [Function.update_of_ne hiu] at hw
        exact Or.inr (Or.inl ⟨i, hw⟩)
    · intro id hp
      exact hp.put hc rfl fun hen => ⟨_, rfl, hen⟩
  | stopped row caller =>
    cases hr
    refine hi.mono rfl ?_ ?_
    · intro v hv
      refine hv.of_put (fun _ h => h) ?_ rfl (by simp)
      intro i w hw
      change Function.update s.running row.id none i = some w at hw
      by_cases hir : i = row.id
      · rw [hir, Function.update_self] at hw
        cases hw
      · rw [Function.update_of_ne hir] at hw
        exact Or.inr (Or.inl ⟨i, hw⟩)
    · intro id hp
      exact hp.put hc rfl (fun h => absurd h (fun h => h))
  | _ => cases hr

/-- A statement that throws names no row, so no transport counts on it. -/
theorem inv_refused {s : Listeners} {c : Nat} {fresh : String} {q : Statement} {next : Next}
    (hi : s.Inv) (hc : s.calls c = some (.asked q next))
    (hq : s.configs.execute fresh q = none) : (s.put c none).Inv := by
  apply inv_leave hi hc
  intro u hu hen
  exfalso
  obtain ⟨row, hrow, _⟩ := hi u hu
  cases q with
  | setEnabled id enabled =>
    cases enabled with
    | false => exact hen
    | true =>
      have hid : id = u.configId := hen
      rw [ConfigTable.execute, hid, hrow] at hq
      cases hq
  | _ => exact hen

theorem inv_executes {s t : Listeners} {c : Nat} {fresh : String} (hi : s.Inv)
    (hok : s.Orderly (.executes c fresh)) (h : s.step (.executes c fresh) = some t) : t.Inv := by
  obtain ⟨call, hc, hr⟩ := Option.bind_eq_some_iff.mp h
  have hrespects := hok call hc
  cases call with
  | asked q next =>
    rw [executes] at hr
    cases hq : s.configs.execute fresh q with
    | none =>
      rw [hq] at hr
      cases hr
      exact inv_refused hi hc hq
    | some result =>
      obtain ⟨a, table⟩ := result
      rw [hq] at hr
      cases hr
      intro u hu
      have hlive : s.Live u := hu.of_moved rfl rfl rfl (by simp)
      obtain ⟨row, hrow, hdesc, hflag⟩ := hi u hlive
      have hrid : row.id = u.configId := ConfigTable.find_id hrow
      have hleft := execute_find hq hrow
      have hkeep : ¬ Enables u.configId (.asked q next) → s.Pending u.configId →
          ({ s with configs := table }.put c (some (.told a next))).Pending u.configId :=
        fun hno hp => hp.put hc rfl (fun hen => absurd hen hno)
      cases q with
      | write id data =>
        refine ⟨_, hleft, ?_, ?_⟩
        · rw [ConfigTable.overwritten]
          split_ifs with hid
          · exact hrespects u hlive (hrid.symm.trans hid)
          · exact hdesc
        · rw [ConfigTable.overwritten]
          split_ifs with hid
          · exact hflag.imp_right (hkeep fun h => h)
          · exact hflag.imp_right (hkeep fun h => h)
      | setEnabled id enabled =>
        refine ⟨_, hleft, ?_, ?_⟩
        · rw [ConfigTable.overwritten]
          split_ifs with hid
          · exact hdesc
          · exact hdesc
        · rw [ConfigTable.overwritten]
          split_ifs with hid
          · cases enabled with
            | true => exact Or.inl rfl
            | false =>
              have hp := hrespects u hlive (hrid.symm.trans hid)
              rw [← hid, hrid] at hp
              exact Or.inr (hkeep (fun h => h) hp)
          · apply hflag.imp_right
            apply hkeep
            cases enabled with
            | true => exact fun heq => hid (hrid.trans heq.symm)
            | false => exact fun h => h
      | delete id =>
        have hne : row.id ≠ id := fun heq => hrespects u hlive (hrid.symm.trans heq)
        rw [Statement.leaves, if_neg hne] at hleft
        exact ⟨row, hleft, hdesc, hflag.imp_right (hkeep fun h => h)⟩
      | _ => exact ⟨row, hleft, hdesc, hflag.imp_right (hkeep fun h => h)⟩
  | _ => cases hr

/-- A move concerns its own call only. -/
theorem step_other {s t : Listeners} {m : Move} {c : Nat} (hne : m.caller ≠ c)
    (h : s.step m = some t) : t.calls c = s.calls c := by
  have hput : ∀ {u : Listeners} {i : Nat} {call : Option Call}, i ≠ c →
      (u.put i call).calls c = u.calls c := fun hi => put_other (Ne.symm hi)
  cases m with
  | call i op =>
    simp only [step] at h
    split_ifs at h
    cases h
    exact hput hne
  | executes i fresh =>
    obtain ⟨call, _, hr⟩ := Option.bind_eq_some_iff.mp h
    cases call with
    | asked q next =>
      rw [executes] at hr
      split at hr <;> cases hr <;> exact hput hne
    | _ => cases hr
  | settles i =>
    obtain ⟨call, _, hr⟩ := Option.bind_eq_some_iff.mp h
    cases call <;> cases hr <;> exact hput hne
  | fails i =>
    obtain ⟨call, _, hr⟩ := Option.bind_eq_some_iff.mp h
    cases call <;> cases hr <;> exact hput hne
  | resumes i =>
    obtain ⟨call, _, hr⟩ := Option.bind_eq_some_iff.mp h
    cases call <;> cases hr <;> exact hput hne

theorem exec_other {s t : Listeners} {run : List Move} {c : Nat}
    (hne : ∀ m ∈ run, m.caller ≠ c) (h : exec step s run = some t) : t.calls c = s.calls c := by
  induction run generalizing s with
  | nil => cases h; rfl
  | cons m run ih =>
    obtain ⟨u, hu, hr⟩ := Option.bind_eq_some_iff.mp h
    rw [ih (fun m hm => hne m (List.mem_cons_of_mem _ hm)) hr]
    exact step_other (hne m List.mem_cons_self) hu

theorem inv_step (s : Listeners) (m : Move) (t : Listeners) (hi : s.Inv) (hok : s.Orderly m)
    (h : s.step m = some t) : t.Inv := by
  cases m with
  | call c op => exact inv_call hi h
  | executes c fresh => exact inv_executes hi hok h
  | settles c => exact inv_settles hi hok h
  | fails c => exact inv_fails hi hok h
  | resumes c => exact inv_resumes hi h

theorem boot_inv (configs : ConfigTable) : (boot configs).Inv := by
  intro t ht
  obtain h | ⟨_, h⟩ | ⟨_, h⟩ := ht
  · cases h
  · cases h
  · cases h

theorem Inv.accurate {s : Listeners} (hi : s.Inv) (hq : s.Quiet) : s.Accurate := by
  intro t ht
  obtain ⟨row, hrow, hdesc, hflag⟩ := hi t (ht.imp_right Or.inl)
  refine ⟨row, hrow, ?_, hdesc⟩
  obtain hset | ⟨c, call, hcall, _⟩ := hflag
  · exact hset
  · rw [hq c] at hcall
    cases hcall

/-- In a run whose steps are all orderly, the running transports are what enabled rows say
whenever no call is in progress. -/
theorem accurate_of_orderly (configs : ConfigTable) (run : List Move)
    (h : Along step Orderly (boot configs) run) :
    Always step (fun s => s.Quiet → s.Accurate) (boot configs) run := by
  have hinv := always_of_along inv_step (boot_inv configs) h
  exact hinv.mono fun s hi => hi.accurate

def oneSwitch : ConfigTable :=
  ⟨[⟨⟨"a", "ISO8583_TCP", "127.0.0.1", 8583, "JALIN", false, false, none⟩, "a", false⟩],
    by decide⟩

def portOnly (port : Int) : CreateOrUpdateHostTransportInput :=
  ⟨none, none, none, some (.ofInt port), none, none, none, none⟩

/-- The port is edited while the listener binds: the flag that guards `update` is not yet set. -/
def editDuringStart : List Move :=
  [.call 0 (.startConfig "a"), .executes 0 "", .resumes 0, .call 1 (.update "a" (portOnly 9000)),
    .executes 1 "", .resumes 1, .executes 1 "", .resumes 1, .settles 0, .resumes 0,
    .executes 0 "", .resumes 0]

theorem edited_under_listener :
    ∃ s, exec step (boot oneSwitch) editDuringStart = some s ∧ s.Quiet ∧ ¬ s.Accurate := by
  have hrun : exec step (boot oneSwitch) editDuringStart = some _ := rfl
  refine ⟨_, hrun, ?_, ?_⟩
  · intro c
    by_cases h0 : c = 0
    · rw [h0]
      rfl
    · by_cases h1 : c = 1
      · rw [h1]
        rfl
      · have hnamed : ∀ m ∈ editDuringStart, m.caller ≠ c := by
          have hall : ∀ m ∈ editDuringStart, m.caller = 0 ∨ m.caller = 1 := by decide
          intro m hm heq
          cases hall m hm with
          | inl h => exact h0 (heq.symm.trans h)
          | inr h => exact h1 (heq.symm.trans h)
        exact exec_other hnamed hrun
  · intro h
    obtain ⟨row, hrow, _, hdesc⟩ := h _ (Or.inr ⟨"a", rfl⟩)
    cases hrow
    revert hdesc
    decide

def startAlone : List Move :=
  [.call 0 (.startConfig "a"), .executes 0 "", .resumes 0, .settles 0, .resumes 0,
    .executes 0 "", .resumes 0]

theorem accurate_after_start :
    Always step (fun s => s.Quiet → s.Accurate) (boot oneSwitch) startAlone := by
  apply accurate_of_orderly
  intro s hs
  cases hs
  refine ⟨trivial, ?_⟩
  intro s hs
  cases hs
  refine ⟨fun call hc => by cases hc; trivial, ?_⟩
  intro s hs
  cases hs
  refine ⟨trivial, ?_⟩
  intro s hs
  cases hs
  refine ⟨fun call hc => by cases hc; exact ⟨_, rfl, by decide⟩, ?_⟩
  intro s hs
  cases hs
  refine ⟨trivial, ?_⟩
  intro s hs
  cases hs
  refine ⟨fun call hc => by cases hc; trivial, ?_⟩
  intro s hs
  cases hs
  exact ⟨trivial, trivial⟩

end Listeners

end AtmXfs.Host
