import AtmXfs.Host.Sequential

namespace AtmXfs.Host

open Js Runs

/-- The baseline rows, with whether each is enabled. -/
def seeds : List (ConfigData × Bool) :=
  [(⟨"In-Process (default)", "IN_PROCESS", "127.0.0.1", 0, "JALIN", false, true,
      some "Direct method call from ATM state machine — no network. Default for native mode."⟩,
      true),
    (⟨"Jalin ISO 8583 TCP", "ISO8583_TCP", "127.0.0.1", 8583, "JALIN", false, false,
      some "2-byte length-prefixed ASCII frames. Mandiri-anchored BIN ranges."⟩, false),
    (⟨"BI-FAST ISO 20022 HTTP", "ISO20022_HTTP", "127.0.0.1", 8443, "BIFAST", false, false,
      some "POST /pacs.008 → pacs.002 status report. BI-FAST style."⟩, false)]

namespace ConfigTable

def empty : ConfigTable := ⟨[], List.nodup_nil⟩

/-- Insert a row; the database refuses an id or a name that is there. -/
def create (table : ConfigTable) (row : HostTransportConfig) : Except Exception ConfigTable :=
  if h : table.find row.id = none ∧ table.taken row.id row.name = false then
    .ok (table.insert row h.1)
  else .error .database

/-- `upsert` on the name, with nothing to update. -/
def upsert (fresh : String) (table : ConfigTable) (seed : ConfigData × Bool) :
    Except Exception ConfigTable :=
  if table.rows.any (·.name = seed.1.name) then .ok table
  else table.create ⟨seed.1, fresh, seed.2⟩

/-- `fresh` gives the id of the row of each name. -/
def ensureSeedRows (fresh : String → String) (table : ConfigTable) : Except Exception ConfigTable :=
  seeds.foldlM (fun table seed => table.upsert (fresh seed.1.name) seed) table

end ConfigTable

namespace HostTransportManagerService

def create (fresh : String) (m : HostTransportManagerService)
    (input : CreateOrUpdateHostTransportInput) :
    Settled HostTransportConfigDto × HostTransportManagerService :=
  match createData input with
  | .error e => (.throws e, m)
  | .ok data =>
    match m.configs.create ⟨data, fresh, false⟩ with
    | .error e => (.throws e, m)
    | .ok configs =>
      let m := { m with configs }
      (.ofExcept (m.toDto ⟨data, fresh, false⟩), m)

def update (m : HostTransportManagerService) (id : String)
    (input : CreateOrUpdateHostTransportInput) :
    Settled HostTransportConfigDto × HostTransportManagerService :=
  match m.configs.find id with
  | none => (.throws (notFound id), m)
  | some existing =>
    match updateData existing input with
    | .error e => (.throws e, m)
    | .ok data =>
      if m.configs.taken id data.name then (.throws .database, m)
      else
        let m := { m with configs := m.configs.write id data }
        (.ofExcept (m.toDto { existing with toConfigData := data }), m)

end HostTransportManagerService

namespace Listeners

variable {s : Listeners} {c : Nat} {o : SocketAnswers}

/-- The interleaved service, left to one call of `create`, does what `create` does. -/
theorem create_alone (hidle : s.calls c = none) (input : CreateOrUpdateHostTransportInput) :
    ∃ t, Performs o c (.create input) s t ∧ t.toHostTransportManagerService =
      (s.toHostTransportManagerService.create o.fresh input).2 := by
  let u := s.put c (Operation.create input).begin
  have hcalled : s.step (.call c (.create input)) = some u := if_pos hidle
  have hbegun : u.calls c = (Operation.create input).begin := put_self ..
  rw [HostTransportManagerService.create]
  cases hdata : createData input with
  | error e =>
    simp only [Operation.begin, hdata] at hbegun
    exact ⟨u, ⟨u, hcalled, .refl u, hbegun⟩, rfl⟩
  | ok data =>
    simp only [Operation.begin, hdata] at hbegun
    cases htaken : s.configs.taken o.fresh data.name with
    | true =>
      have hrefused : u.following o c = some (.fails c) := by
        rw [following, hbegun]
        exact if_pos htaken
      refine ⟨u.put c none, ⟨u, hcalled, rejected hbegun hrefused rfl, put_self ..⟩, ?_⟩
      simp only [ConfigTable.create, htaken, Bool.true_eq_false, and_false, dif_neg not_false]
      rfl
    | false =>
      by_cases hfree : s.configs.find o.fresh = none
      · have hexec : u.configs.execute o.fresh (.create data) =
            some (.done, s.configs.insert ⟨data, o.fresh, false⟩ hfree) := dif_pos hfree
        obtain ⟨ref, t, hlast, hstate, hover⟩ := answered hbegun htaken hexec
        refine ⟨t, ⟨u, hcalled, hlast, hover⟩, ?_⟩
        rw [hstate]
        simp only [ConfigTable.create, htaken, and_true, dif_pos hfree]
        rfl
      · -- the id is there: the statement throws where it executes
        have hexec : u.configs.execute o.fresh (.create data) = none := dif_neg hfree
        have hthrows : u.step (.executes c o.fresh) = some (u.put c none) := by
          show (u.calls c).bind (u.executes c o.fresh) = some (u.put c none)
          rw [hbegun, Option.bind_some, executes, hexec]
        have hasks : u.following o c = some (.executes c o.fresh) := by
          rw [following, hbegun]
          exact if_neg (by rw [Statement.refused]; exact htaken ▸ Bool.false_ne_true)
        refine ⟨u.put c none, ⟨u, hcalled, .head hasks hthrows (.refl _), put_self ..⟩, ?_⟩
        simp only [ConfigTable.create, htaken, and_true, dif_neg hfree]
        rfl

/-- Left to one call of `update`, it does what `update` does. -/
theorem update_alone (hidle : s.calls c = none) (id : String)
    (input : CreateOrUpdateHostTransportInput) :
    ∃ t, Performs o c (.update id input) s t ∧ t.toHostTransportManagerService =
      (s.toHostTransportManagerService.update id input).2 := by
  have hop : (Operation.update id input).begin = some (.asked (.find id) (.update id input)) := rfl
  obtain ⟨ref, u, t, hcalled, hbegun, hself, hnext⟩ := begun (o := o) hidle hop
  rw [HostTransportManagerService.update]
  cases hrow : s.configs.find id with
  | none =>
    rw [hrow] at hnext
    exact ⟨t, ⟨u, hcalled, hbegun, hnext⟩, hself⟩
  | some existing =>
    rw [hrow] at hnext
    simp only [HostTransportManagerService.resume] at hnext
    cases hdata : updateData existing input with
    | error e =>
      simp only [hdata] at hnext
      refine ⟨t, ⟨u, hcalled, hbegun, hnext⟩, ?_⟩
      simp only [hdata]
      exact hself
    | ok data =>
      simp only [hdata] at hnext
      cases htaken : s.configs.taken id data.name with
      | true =>
        have hrefused : t.following o c = some (.fails c) := by
          rw [following, hnext]
          exact if_pos (by rw [hself]; exact htaken)
        refine ⟨t.put c none,
          ⟨u, hcalled, hbegun.trans (rejected hnext hrefused rfl), put_self ..⟩, ?_⟩
        simp only [hdata, htaken, if_true]
        exact hself
      | false =>
        have hfree : (Statement.write id data).refused o.fresh t.configs = false := by
          rw [hself]
          exact htaken
        have hexec : t.configs.execute o.fresh (.write id data) =
            some (.done, s.configs.write id data) := by
          rw [hself, ConfigTable.execute, hrow]
          rfl
        obtain ⟨ref', v, hlast, hstate, hover⟩ := answered hnext hfree hexec
        refine ⟨v, ⟨u, hcalled, hbegun.trans hlast, hover⟩, ?_⟩
        simp only [hdata, htaken, Bool.false_eq_true, if_false]
        rw [hstate, hself]

end Listeners

/-- A call; `fresh` is the id the database gives the new row. -/
inductive ConfigCall where
  | create (fresh : String) (input : CreateOrUpdateHostTransportInput)
  | update (id : String) (input : CreateOrUpdateHostTransportInput)
  deriving DecidableEq

/-- What a call leaves, however it settles. -/
def configStep (m : HostTransportManagerService) : ConfigCall → Option HostTransportManagerService
  | .create fresh input => some (m.create fresh input).2
  | .update id input => some (m.update id input).2

namespace ConfigCall

def operation : ConfigCall → Operation
  | .create _ input => .create input
  | .update id input => .update id input

/-- Neither of the two calls starts or stops a listener. -/
def answers : ConfigCall → SocketAnswers
  | .create fresh _ => ⟨.never, fun _ => .never, fresh⟩
  | .update _ _ => ⟨.never, fun _ => .never, ""⟩

end ConfigCall

/-- Each operation of the list in its turn is called once, and goes on until it is over. -/
def PerformsAll (c : Nat) : List ConfigCall → Listeners → Listeners → Prop
  | [], s, t => t = s
  | call :: calls, s, t => ∃ u, Listeners.Performs call.answers c call.operation s u ∧
      PerformsAll c calls u t

theorem PerformsAll.unique {c : Nat} {calls : List ConfigCall} {s t t' : Listeners}
    (h : PerformsAll c calls s t) (h' : PerformsAll c calls s t') : t' = t := by
  induction calls generalizing s with
  | nil => exact Eq.trans h' (Eq.symm h)
  | cons call calls ih =>
    obtain ⟨u, hfirst, hrest⟩ := h
    obtain ⟨u', hfirst', hrest'⟩ := h'
    cases hfirst.unique hfirst'
    exact ih hrest hrest'

/-- The calls of a list one after the other, in the interleaved service, leave what they leave when
each is taken at once. -/
theorem exec_alone {s : Listeners} {c : Nat} (hidle : s.calls c = none) (calls : List ConfigCall) :
    ∃ t, PerformsAll c calls s t ∧ t.calls c = none ∧
      exec configStep s.toHostTransportManagerService calls =
        some t.toHostTransportManagerService ∧ ∀ t', PerformsAll c calls s t' → t' = t := by
  suffices h : ∃ t, PerformsAll c calls s t ∧ t.calls c = none ∧
      exec configStep s.toHostTransportManagerService calls =
        some t.toHostTransportManagerService by
    obtain ⟨t, hall, hover, hexec⟩ := h
    exact ⟨t, hall, hover, hexec, fun t' h' => hall.unique h'⟩
  induction calls generalizing s with
  | nil => exact ⟨s, rfl, hidle, rfl⟩
  | cons call calls ih =>
    have hfirst : ∃ t, Listeners.Performs call.answers c call.operation s t ∧
        configStep s.toHostTransportManagerService call =
          some t.toHostTransportManagerService := by
      cases call with
      | create fresh input =>
        obtain ⟨t, hperforms, hstate⟩ := Listeners.create_alone
          (o := (ConfigCall.create fresh input).answers) hidle input
        exact ⟨t, hperforms, congrArg some hstate.symm⟩
      | update id input =>
        obtain ⟨t, hperforms, hstate⟩ := Listeners.update_alone
          (o := (ConfigCall.update id input).answers) hidle id input
        exact ⟨t, hperforms, congrArg some hstate.symm⟩
    obtain ⟨t, hperforms, hstep⟩ := hfirst
    have hover : t.calls c = none := by
      obtain ⟨_, _, _, hover⟩ := hperforms
      exact hover
    obtain ⟨u, hrest, hlast, hexec⟩ := ih hover
    refine ⟨u, ⟨t, hperforms, hrest⟩, hlast, ?_⟩
    rw [exec, hstep]
    exact hexec

/-- A config is created, and then updated under the name of none. -/
theorem exec_alone_created :
    let input : CreateOrUpdateHostTransportInput :=
      ⟨some "echo", some "IN_PROCESS", none, none, some "JALIN", none, none, none⟩
    let calls : List ConfigCall := [.create "a" input, .update "b" input]
    ∃ t, PerformsAll 0 calls (Listeners.boot .empty) t ∧ t.calls 0 = none ∧
      exec configStep (Listeners.boot .empty).toHostTransportManagerService calls =
        some t.toHostTransportManagerService ∧
      ∀ t', PerformsAll 0 calls (Listeners.boot .empty) t' → t' = t :=
  exec_alone rfl _

/-- Port 0 in process, else one that can be bound. -/
def PortFits (kind : String) (port : Int) : Prop :=
  if kind = HostTransportKind.inProcess.text then port = 0 else 1 ≤ port ∧ port ≤ 65535

instance (kind : String) (port : Int) : Decidable (PortFits kind port) := by
  unfold PortFits
  infer_instance

def Bindable (m : HostTransportManagerService) : Prop :=
  ∀ row ∈ m.configs.rows, PortFits row.kind row.port

instance (m : HostTransportManagerService) : Decidable (Bindable m) := by
  unfold Bindable
  infer_instance

/-- The input names no port and a kind that is in process where the stored one is not, or the
other way round. -/
def Turns (existing : HostTransportConfig) (input : CreateOrUpdateHostTransportInput) : Prop :=
  input.port = none ∧ ∃ k : HostTransportKind, given input.kind = some k.text ∧
    ¬ (k = .inProcess ↔ existing.kind = HostTransportKind.inProcess.text)

/-- An update of a stopped row that nothing rejects does not turn its kind without a port. -/
def CarriesPort (m : HostTransportManagerService) : ConfigCall → Prop
  | .create _ _ => True
  | .update id input => ∀ existing, m.configs.find id = some existing → existing.enabled = false →
      (∀ p, given input.switchProfile = some p → (requireSwitch p).isOk = true) →
      m.configs.taken id (input.name.getD existing.name) = false → ¬ Turns existing input

theorem text_inProcess (k : HostTransportKind) :
    k.text = HostTransportKind.inProcess.text ↔ k = .inProcess := by
  cases k <;> decide

theorem requireKind_text (k : HostTransportKind) : requireKind (some k.text) = .ok k := by
  cases k <;> rfl

theorem normalizePort_fits {kind : String} {port : Option Number} {p : Int}
    (h : normalizePort kind port = .ok p) : PortFits kind p := by
  rw [normalizePort] at h
  rw [PortFits]
  split_ifs at h ⊢ with hkind
  · cases h
    rfl
  · cases hint : (port.getD .nan).toInt?.filter fun p => 1 ≤ p ∧ p ≤ 65535 with
    | none =>
      rw [hint] at h
      cases h
    | some q =>
      rw [hint] at h
      cases h
      have hrange := (Option.filter_eq_some_iff.mp hint).2
      simpa using hrange

/-- A check that is passed gives its value to what follows. -/
theorem bind_ok {α β : Type} {x : Except Exception α} {f : α → Except Exception β} {b : β}
    (h : x >>= f = .ok b) : ∃ a, x = .ok a ∧ f a = .ok b := by
  cases x with
  | error e => cases h
  | ok a => exact ⟨a, rfl, h⟩

theorem createData_fits {input : CreateOrUpdateHostTransportInput} {data : ConfigData}
    (h : createData input = .ok data) : PortFits data.kind data.port := by
  rw [createData] at h
  obtain ⟨k, -, h⟩ := bind_ok h
  obtain ⟨s, -, h⟩ := bind_ok h
  obtain ⟨p, hport, h⟩ := bind_ok h
  cases h
  exact normalizePort_fits hport

theorem requireKind_ok {s : String} {k : HostTransportKind} (h : requireKind (some s) = .ok k) :
    s = k.text := by
  rw [requireKind] at h
  cases hfound : (some s).bind fun s => validKinds.find? (·.text = s) with
  | none =>
    rw [hfound] at h
    cases h
  | some found =>
    rw [hfound] at h
    cases h
    have htext := List.find?_some hfound
    exact (of_decide_eq_true htext).symm

/-- The kind that an update writes. -/
def updatedKind (existing : HostTransportConfig) (input : CreateOrUpdateHostTransportInput) :
    Except Exception String :=
  match given input.kind with
  | some s => (requireKind (some s)).map (·.text)
  | none => .ok existing.kind

def updatedSwitch (existing : HostTransportConfig) (input : CreateOrUpdateHostTransportInput) :
    Except Exception String :=
  match given input.switchProfile with
  | some s => (requireSwitch s).map (·.text)
  | none => .ok existing.switchProfile

def updatedPort (existing : HostTransportConfig) (input : CreateOrUpdateHostTransportInput)
    (kind : String) : Except Exception Int :=
  match input.port with
  | some p => normalizePort kind (some p)
  | none => .ok existing.port

/-- An update of a stopped row, in its three checks. -/
theorem updateData_stopped {existing : HostTransportConfig} (hstopped : existing.enabled = false)
    (input : CreateOrUpdateHostTransportInput) :
    updateData existing input = (updatedKind existing input).bind fun kind =>
      (updatedSwitch existing input).bind fun switchProfile =>
        (updatedPort existing input kind).bind fun port => .ok {
          name := input.name.getD existing.name
          kind
          bindAddress := input.bindAddress.getD existing.bindAddress
          port
          switchProfile
          tlsEnabled := input.tlsEnabled.getD existing.tlsEnabled
          isPrimary := input.isPrimary.getD existing.isPrimary
          notes := input.notes <|> existing.notes } := by
  rw [updateData, hstopped, updatedKind, updatedSwitch]
  simp only [updatedPort, bind, Except.bind, pure, Except.pure, Bool.false_eq_true, if_false]
  cases given input.kind with
  | none =>
    cases given input.switchProfile with
    | none => cases input.port <;> rfl
    | some s =>
      dsimp only
      cases requireSwitch s with
      | error e => rfl
      | ok profile => cases input.port <;> rfl
  | some s =>
    dsimp only
    cases requireKind (some s) with
    | error e => rfl
    | ok k =>
      cases given input.switchProfile with
      | none => cases input.port <;> rfl
      | some s =>
        dsimp only
        cases requireSwitch s with
        | error e => rfl
        | ok profile => cases input.port <;> rfl

theorem updatedKind_ok {existing : HostTransportConfig} {input : CreateOrUpdateHostTransportInput}
    {kind : String} (h : updatedKind existing input = .ok kind) :
    given input.kind = none ∧ kind = existing.kind ∨
      ∃ k : HostTransportKind, given input.kind = some k.text ∧ kind = k.text := by
  rw [updatedKind] at h
  cases hgiven : given input.kind with
  | none =>
    rw [hgiven] at h
    cases h
    exact .inl ⟨rfl, rfl⟩
  | some s =>
    rw [hgiven] at h
    cases hk : requireKind (some s) with
    | error e =>
      simp only [hk] at h
      cases h
    | ok k =>
      simp only [hk] at h
      cases h
      exact .inr ⟨k, congrArg some (requireKind_ok hk), rfl⟩

theorem updatedSwitch_isOk (existing : HostTransportConfig)
    (input : CreateOrUpdateHostTransportInput) : (updatedSwitch existing input).isOk = true ↔
      ∀ p, given input.switchProfile = some p → (requireSwitch p).isOk = true := by
  rw [updatedSwitch]
  cases given input.switchProfile with
  | none => simp [Except.isOk, Except.toBool]
  | some s =>
    cases hs : requireSwitch s with
    | error e => simp [hs, Except.isOk, Except.toBool, Except.map]
    | ok profile => simp [hs, Except.isOk, Except.toBool, Except.map]

theorem updatedPort_ok {existing : HostTransportConfig} {input : CreateOrUpdateHostTransportInput}
    {kind : String} {port : Int} (h : updatedPort existing input kind = .ok port) :
    PortFits kind port ∨ input.port = none ∧ port = existing.port := by
  rw [updatedPort] at h
  cases hport : input.port with
  | none =>
    rw [hport] at h
    cases h
    exact .inr ⟨rfl, rfl⟩
  | some p =>
    rw [hport] at h
    exact .inl (normalizePort_fits h)

/-- All that a written update can have done to name, kind and port. -/
theorem updateData_cases {existing : HostTransportConfig}
    {input : CreateOrUpdateHostTransportInput} {data : ConfigData}
    (h : updateData existing input = .ok data) :
    existing.enabled = false ∧ data.name = input.name.getD existing.name ∧
      (∀ p, given input.switchProfile = some p → (requireSwitch p).isOk = true) ∧
      (given input.kind = none ∧ data.kind = existing.kind ∨
        ∃ k : HostTransportKind, given input.kind = some k.text ∧ data.kind = k.text) ∧
      (PortFits data.kind data.port ∨ input.port = none ∧ data.port = existing.port) := by
  have hstopped : existing.enabled = false := by
    by_contra hlive
    rw [updateData, if_pos (by simpa using hlive)] at h
    cases h
  rw [updateData_stopped hstopped] at h
  obtain ⟨kind, hkind, h⟩ := bind_ok h
  obtain ⟨profile, hswitch, h⟩ := bind_ok h
  obtain ⟨port, hport, h⟩ := bind_ok h
  cases h
  have hswitches := updatedSwitch_isOk existing input
  rw [hswitch] at hswitches
  exact ⟨hstopped, rfl, hswitches.mp rfl, updatedKind_ok hkind, updatedPort_ok hport⟩

/-- A stopped row takes the kind of an accepted update and keeps its port if none is given. -/
theorem updateData_portless {existing : HostTransportConfig}
    {input : CreateOrUpdateHostTransportInput} {k : HostTransportKind}
    (hstopped : existing.enabled = false)
    (hswitch : ∀ p, given input.switchProfile = some p → (requireSwitch p).isOk = true)
    (hkind : given input.kind = some k.text) (hport : input.port = none) :
    ∃ data, updateData existing input = .ok data ∧ data.name = input.name.getD existing.name ∧
      data.kind = k.text ∧ data.port = existing.port := by
  have hwritten : updatedKind existing input = .ok k.text := by
    rw [updatedKind, hkind]
    simp only [requireKind_text]
    rfl
  have hkept : updatedPort existing input k.text = .ok existing.port := by rw [updatedPort, hport]
  rw [updateData_stopped hstopped, hwritten]
  have hok := (updatedSwitch_isOk existing input).mpr hswitch
  cases hs : updatedSwitch existing input with
  | error e =>
    rw [hs] at hok
    cases hok
  | ok profile =>
    simp only [Except.bind, hkept]
    exact ⟨_, rfl, rfl, rfl, rfl⟩

/-- A port fits two kinds exactly if both are in process or neither is. -/
theorem portFits_other {kind : String} {port : Int} (h : PortFits kind port)
    (k : HostTransportKind) : PortFits k.text port ↔
      (k = .inProcess ↔ kind = HostTransportKind.inProcess.text) := by
  have htext := text_inProcess k
  rw [PortFits] at h ⊢
  by_cases hk : k = .inProcess
  · rw [if_pos (htext.mpr hk)]
    split_ifs at h with hkind
    · simp [h, hkind, hk]
    · have hport : port ≠ 0 := by omega
      simp [hport, hkind, hk]
  · rw [if_neg (fun heq => hk (htext.mp heq))]
    split_ifs at h with hkind
    · simp [h, hkind, hk]
    · simp [h, hkind, hk]

theorem bindable_write {m : HostTransportManagerService} (hm : Bindable m) {id : String}
    {existing : HostTransportConfig} (hfound : m.configs.find id = some existing)
    (data : ConfigData) : Bindable { m with configs := m.configs.write id data } ↔
      PortFits data.kind data.port := by
  have hid := ConfigTable.find_id hfound
  constructor
  · intro hall
    have hmem : ConfigTable.overwritten id (fun row => { row with toConfigData := data }) existing ∈
        (m.configs.write id data).rows := List.mem_map_of_mem (ConfigTable.find_mem hfound)
    have hfits := hall _ hmem
    rw [ConfigTable.overwritten, if_pos hid] at hfits
    exact hfits
  · intro hdata row hrow
    obtain ⟨old, hold, rfl⟩ := List.mem_map.mp hrow
    by_cases hsame : old.id = id
    · rw [ConfigTable.overwritten, if_pos hsame]
      exact hdata
    · rw [ConfigTable.overwritten, if_neg hsame]
      exact hm old hold

theorem bindable_create {m : HostTransportManagerService} (hm : Bindable m)
    {row : HostTransportConfig} (hrow : PortFits row.kind row.port) {configs : ConfigTable}
    (h : m.configs.create row = .ok configs) : Bindable { m with configs } := by
  rw [ConfigTable.create] at h
  split_ifs at h with hfresh
  cases h
  intro old hold
  rcases List.mem_append.mp hold with hbefore | hnew
  · exact hm old hbefore
  · rw [List.mem_singleton.mp hnew]
    exact hrow

/-- What an update writes over a row that fits does fit, unless it turns the kind. -/
theorem portFits_written {existing : HostTransportConfig}
    {input : CreateOrUpdateHostTransportInput} {data : ConfigData}
    (hold : PortFits existing.kind existing.port) (hdata : updateData existing input = .ok data) :
    PortFits data.kind data.port ↔ ¬ Turns existing input := by
  obtain ⟨hstopped, -, hswitch, hkinds, hports⟩ := updateData_cases hdata
  constructor
  · intro hfits hturns
    obtain ⟨hport, k, hkind, hacross⟩ := hturns
    obtain ⟨data', hwritten, -, hkind', hport'⟩ :=
      updateData_portless hstopped hswitch hkind hport
    rw [hdata] at hwritten
    cases hwritten
    rw [hkind', hport'] at hfits
    exact hacross ((portFits_other hold k).mp hfits)
  · intro hstays
    rcases hports with hfits | ⟨hport, hport'⟩
    · exact hfits
    rw [hport']
    rcases hkinds with ⟨-, hsame⟩ | ⟨k, hgiven, hkind⟩
    · rw [hsame]
      exact hold
    · rw [hkind, portFits_other hold k]
      by_contra hacross
      exact hstays ⟨hport, k, hgiven, hacross⟩

theorem carriesPort_found {m : HostTransportManagerService} {id : String}
    {existing : HostTransportConfig} (hfound : m.configs.find id = some existing)
    (input : CreateOrUpdateHostTransportInput) : CarriesPort m (.update id input) ↔
      (existing.enabled = false →
        (∀ p, given input.switchProfile = some p → (requireSwitch p).isOk = true) →
        m.configs.taken id (input.name.getD existing.name) = false → ¬ Turns existing input) := by
  simp only [CarriesPort, hfound, Option.some.injEq, forall_eq']

/-- One call keeps every port fitting exactly if it meets the condition. -/
theorem bindable_step {m t : HostTransportManagerService} {call : ConfigCall} (hm : Bindable m)
    (ht : configStep m call = some t) : Bindable t ↔ CarriesPort m call := by
  cases call with
  | create fresh input =>
    cases ht
    refine ⟨fun _ => trivial, fun _ => ?_⟩
    rw [HostTransportManagerService.create]
    cases hdata : createData input with
    | error e => exact hm
    | ok data =>
      cases hcreate : m.configs.create ⟨data, fresh, false⟩ with
      | error e => simpa only [hcreate] using hm
      | ok configs =>
        simp only [hcreate]
        exact bindable_create hm (createData_fits hdata) hcreate
  | update id input =>
    cases ht
    rw [HostTransportManagerService.update]
    cases hfound : m.configs.find id with
    | none =>
      have hok : CarriesPort m (.update id input) := by
        intro existing hexisting
        rw [hfound] at hexisting
        cases hexisting
      exact ⟨fun _ => hok, fun _ => hm⟩
    | some existing =>
      have hold := hm existing (ConfigTable.find_mem hfound)
      rw [carriesPort_found hfound]
      cases hdata : updateData existing input with
      | error e =>
        simp only [hdata]
        refine ⟨?_, fun _ => hm⟩
        intro _ hstopped hswitch _ hturns
        obtain ⟨hport, k, hkind, -⟩ := hturns
        obtain ⟨data, hwritten, -⟩ := updateData_portless hstopped hswitch hkind hport
        rw [hdata] at hwritten
        cases hwritten
      | ok data =>
        obtain ⟨hstopped, hname, hswitch, -, -⟩ := updateData_cases hdata
        rw [← hname]
        cases htaken : m.configs.taken id data.name with
        | true =>
          simp only [hdata, htaken, if_true]
          exact ⟨fun _ _ _ hfree => absurd hfree (by decide), fun _ => hm⟩
        | false =>
          simp only [hdata, htaken, Bool.false_eq_true, if_false]
          rw [bindable_write hm hfound, portFits_written hold hdata]
          exact ⟨fun hstays _ _ _ => hstays, fun hok => hok hstopped hswitch trivial⟩

theorem upsert_bindable {fresh : String} {table table' : ConfigTable} {seed : ConfigData × Bool}
    (hseed : PortFits seed.1.kind seed.1.port) {running : String → Option HostTransport}
    (hm : Bindable ⟨table, running⟩) (h : table.upsert fresh seed = .ok table') :
    Bindable ⟨table', running⟩ := by
  rw [ConfigTable.upsert] at h
  split_ifs at h with hthere
  · cases h
    exact hm
  · exact bindable_create hm hseed h

theorem ensureSeedRows_bindable {fresh : String → String} {table table' : ConfigTable}
    {running : String → Option HostTransport} (hm : Bindable ⟨table, running⟩)
    (h : table.ensureSeedRows fresh = .ok table') : Bindable ⟨table', running⟩ := by
  have hseeds : ∀ seed ∈ seeds, PortFits seed.1.kind seed.1.port := by decide
  rw [ConfigTable.ensureSeedRows] at h
  generalize seeds = rows at hseeds h
  induction rows generalizing table with
  | nil =>
    cases h
    exact hm
  | cons seed rows ih =>
    rw [List.foldlM_cons] at h
    cases hfirst : table.upsert (fresh seed.1.name) seed with
    | error e =>
      rw [hfirst] at h
      cases h
    | ok next =>
      rw [hfirst] at h
      have hnext := upsert_bindable (hseeds seed (List.mem_cons_self ..)) hm hfirst
      exact ih hnext (fun later hlater => hseeds later (List.mem_cons_of_mem _ hlater)) h

/-- From the seeded rows the ports fit all along exactly the calls none of which turns the kind of
a row without giving it a port. -/
theorem bindable_iff_carriesPort (fresh : String → String) {table : ConfigTable}
    (hseeded : ConfigTable.empty.ensureSeedRows fresh = .ok table)
    (running : String → Option HostTransport) (calls : List ConfigCall) :
    Always configStep Bindable ⟨table, running⟩ calls ↔
      Along configStep CarriesPort ⟨table, running⟩ calls := by
  have hempty : Bindable ⟨ConfigTable.empty, running⟩ := fun row hrow => by cases hrow
  have hstart := ensureSeedRows_bindable hempty hseeded
  apply always_iff_along (fun _ => True)
  · intro _ _ _ _ _
    trivial
  · intro m call t _ hm ht
    exact bindable_step hm ht
  · trivial
  · exact hstart

/-- The seeded rows, under their names for ids. -/
def firstBoot : ConfigTable :=
  ⟨seeds.map fun seed => ⟨seed.1, seed.1.name, seed.2⟩, by decide⟩

def kindOnly (kind : HostTransportKind) : CreateOrUpdateHostTransportInput :=
  ⟨none, some kind.text, none, none, none, none, none, none⟩

theorem bindable_iff_carriesPort_firstBoot :
    Always configStep Bindable ⟨firstBoot, fun _ => none⟩
        [.update "Jalin ISO 8583 TCP" (kindOnly .iso20022Http)] ↔
      Along configStep CarriesPort ⟨firstBoot, fun _ => none⟩
        [.update "Jalin ISO 8583 TCP" (kindOnly .iso20022Http)] :=
  bindable_iff_carriesPort id rfl (fun _ => none)
    [.update "Jalin ISO 8583 TCP" (kindOnly .iso20022Http)]

/-- An in-process config is made a TCP listener, and keeps port 0. -/
theorem listener_without_port : ConfigTable.empty.ensureSeedRows id = .ok firstBoot ∧
    ¬ Always configStep Bindable ⟨firstBoot, fun _ => none⟩
      [.create "a" (kindOnly .inProcess), .update "a" (kindOnly .iso8583Tcp)] := by
  refine ⟨rfl, ?_⟩
  intro h
  have hlast := h.last rfl
  revert hlast
  decide

end AtmXfs.Host
