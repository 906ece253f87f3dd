import AtmXfs.Host.Emulator
import Mathlib.Data.List.Nodup

namespace AtmXfs.Host

open Js

inductive HostTransportKind where
  | inProcess | iso8583Tcp | iso20022Http
  deriving DecidableEq

def HostTransportKind.text : HostTransportKind → String
  | inProcess => "IN_PROCESS"
  | iso8583Tcp => "ISO8583_TCP"
  | iso20022Http => "ISO20022_HTTP"

def validKinds : List HostTransportKind := [.inProcess, .iso8583Tcp, .iso20022Http]

def validSwitches : List IsoSwitchId := allSwitchProfiles.map (·.id)

/-- The columns of a stored config that `create` and `update` write. -/
structure ConfigData where
  name : String
  kind : String
  bindAddress : String
  port : Int
  switchProfile : String
  tlsEnabled : Bool
  isPrimary : Bool
  notes : Option String
  deriving DecidableEq

structure HostTransportConfig extends ConfigData where
  id : String
  enabled : Bool
  deriving DecidableEq

/-- The body of a create or update request; `port` is the value `Number(port)`. -/
structure CreateOrUpdateHostTransportInput where
  name : Option String
  kind : Option String
  bindAddress : Option String
  port : Option Number
  switchProfile : Option String
  tlsEnabled : Option Bool
  isPrimary : Option Bool
  notes : Option String
  deriving DecidableEq

/-- What a call of the service can throw. -/
inductive Exception where
  | notFound (message : String)
  | badRequest (message : String)
  | transport (message : String)
  | database
  deriving DecidableEq

def notFound (id : String) : Exception :=
  .notFound ("HostTransportConfig " ++ id ++ " not found")

def mustStop : Exception := .badRequest "Stop the listener before editing its config"

def requireKind (kind : Option String) : Except Exception HostTransportKind :=
  match kind.bind fun s => validKinds.find? (·.text = s) with
  | some k => .ok k
  | none => .error (.badRequest ("Invalid kind '" ++ kind.getD "undefined" ++ "'. Use one of: " ++
      ", ".intercalate (validKinds.map (·.text))))

def requireSwitch (s : String) : Except Exception IsoSwitchId :=
  match validSwitches.find? (·.text = s) with
  | some p => .ok p
  | none => .error (.badRequest ("Invalid switchProfile '" ++ s ++ "'. Use one of: " ++
      ", ".intercalate (validSwitches.map (·.text))))

def normalizePort (kind : String) (port : Option Number) : Except Exception Int :=
  if kind = HostTransportKind.inProcess.text then .ok 0
  else
    match (port.getD .nan).toInt?.filter fun p => 1 ≤ p ∧ p ≤ 65535 with
    | some p => .ok p
    | none => .error (.badRequest ("port must be 1-65535 for " ++ kind))

/-- A transport object; `ref` tells the objects apart. -/
structure HostTransport where
  ref : Nat
  configId : String
  kind : HostTransportKind
  bindAddress : String
  port : Int
  switchProfile : IsoSwitchId
  deriving DecidableEq

/-- The transport for a row. The in-process one keeps no address and reports a fixed one. -/
def buildTransport (ref : Nat) (row : HostTransportConfig) : Except Exception HostTransport := do
  let kind ← requireKind (some row.kind)
  let switchProfile ← requireSwitch row.switchProfile
  match kind with
  | .inProcess => .ok ⟨ref, row.id, .inProcess, "127.0.0.1", 0, switchProfile⟩
  | .iso8583Tcp => .ok ⟨ref, row.id, .iso8583Tcp, row.bindAddress, row.port, switchProfile⟩
  | .iso20022Http => .ok ⟨ref, row.id, .iso20022Http, row.bindAddress, row.port, switchProfile⟩

/-- The part of a runtime status that names the listener. -/
structure HostTransportRuntimeStatus where
  kind : HostTransportKind
  configId : String
  listening : Bool
  bindAddress : String
  port : Int
  switchProfile : IsoSwitchId
  deriving DecidableEq

structure HostTransportConfigDto where
  id : String
  name : String
  kind : HostTransportKind
  bindAddress : String
  port : Int
  switchProfile : IsoSwitchId
  tlsEnabled : Bool
  enabled : Bool
  isPrimary : Bool
  notes : Option String
  status : HostTransportRuntimeStatus
  deriving DecidableEq

def HostTransport.status (t : HostTransport) : HostTransportRuntimeStatus :=
  ⟨t.kind, t.configId, true, t.bindAddress, t.port, t.switchProfile⟩

def createData (input : CreateOrUpdateHostTransportInput) : Except Exception ConfigData := do
  let kind ← requireKind input.kind
  let switchProfile ← requireSwitch (input.switchProfile.getD "JALIN")
  let port ← normalizePort kind.text input.port
  .ok {
    name := input.name.getD (kind.text ++ " " ++ toString port)
    kind := kind.text
    bindAddress := input.bindAddress.getD "127.0.0.1"
    port
    switchProfile := switchProfile.text
    tlsEnabled := input.tlsEnabled.getD false
    isPrimary := input.isPrimary.getD false
    notes := input.notes }

/-- `input.kind ? … : …`: an absent or empty text keeps what is stored. -/
def given (field : Option String) : Option String := field.filter (· ≠ "")

/-- What `update` writes over the row it has read. The stored kind is not checked. -/
def updateData (existing : HostTransportConfig) (input : CreateOrUpdateHostTransportInput) :
    Except Exception ConfigData := do
  if existing.enabled then throw mustStop
  let kind ← match given input.kind with
    | some s => do
      let k ← requireKind (some s)
      pure k.text
    | none => pure existing.kind
  let switchProfile ← match given input.switchProfile with
    | some s => do
      let p ← requireSwitch s
      pure p.text
    | none => pure existing.switchProfile
  let port ← match input.port with
    | some p => normalizePort kind (some p)
    | none => pure existing.port
  .ok {
    name := input.name.getD existing.name
    kind
    bindAddress := input.bindAddress.getD existing.bindAddress
    port
    switchProfile
    tlsEnabled := input.tlsEnabled.getD existing.tlsEnabled
    isPrimary := input.isPrimary.getD existing.isPrimary
    notes := input.notes <|> existing.notes }

/-- The table of configs; `id` is its primary key. -/
structure ConfigTable where
  rows : List HostTransportConfig
  unique : (rows.map (·.id)).Nodup

namespace ConfigTable

def find (table : ConfigTable) (id : String) : Option HostTransportConfig :=
  table.rows.find? (·.id = id)

def insert (table : ConfigTable) (row : HostTransportConfig) (h : table.find row.id = none) :
    ConfigTable where
  rows := table.rows ++ [row]
  unique := by
    have hnew : row.id ∉ table.rows.map (·.id) := by
      intro hmem
      obtain ⟨old, hold, hid⟩ := List.mem_map.mp hmem
      have hne := List.find?_eq_none.mp h old hold
      exact hne (by simpa using hid)
    rw [List.map_append, List.map_singleton]
    apply List.Nodup.append table.unique (List.nodup_singleton _)
    simpa using hnew

/-- The row under `id` rewritten, every other one as it was. -/
def overwritten (id : String) (f : HostTransportConfig → HostTransportConfig)
    (row : HostTransportConfig) : HostTransportConfig :=
  if row.id = id then { f row with id := id } else row

@[simp] theorem overwritten_id (id : String) (f : HostTransportConfig → HostTransportConfig)
    (row : HostTransportConfig) : (overwritten id f row).id = row.id := by
  rw [overwritten]
  split_ifs with h
  · exact h.symm
  · rfl

def modify (table : ConfigTable) (id : String) (f : HostTransportConfig → HostTransportConfig) :
    ConfigTable where
  rows := table.rows.map (overwritten id f)
  unique := by
    rw [List.map_map]
    have hids : (fun row : HostTransportConfig => row.id) ∘ overwritten id f = (·.id) := by
      funext row
      exact overwritten_id id f row
    rw [hids]
    exact table.unique

def setEnabled (table : ConfigTable) (id : String) (enabled : Bool) : ConfigTable :=
  table.modify id fun row => { row with enabled }

def write (table : ConfigTable) (id : String) (data : ConfigData) : ConfigTable :=
  table.modify id fun row => { row with toConfigData := data }

def erase (table : ConfigTable) (id : String) : ConfigTable where
  rows := table.rows.filter (·.id ≠ id)
  unique := table.unique.sublist (List.filter_sublist.map _)

theorem find_id {table : ConfigTable} {id : String} {row : HostTransportConfig}
    (h : table.find id = some row) : row.id = id := by
  have hp := List.find?_some h
  simpa using hp

theorem find_mem {table : ConfigTable} {id : String} {row : HostTransportConfig}
    (h : table.find id = some row) : row ∈ table.rows := List.mem_of_find?_eq_some h

/-- The primary key: a stored row is the one that is found under its id. -/
theorem find_of_mem {table : ConfigTable} {row : HostTransportConfig} (h : row ∈ table.rows) :
    table.find row.id = some row := by
  cases hf : table.find row.id with
  | none =>
    have hne := List.find?_eq_none.mp hf row h
    simp at hne
  | some old =>
    have hid := find_id hf
    have hsame := List.inj_on_of_nodup_map table.unique (find_mem hf) h hid
    rw [hsame]

theorem find_modify (table : ConfigTable) (id i : String)
    (f : HostTransportConfig → HostTransportConfig) :
    (table.modify id f).find i = (table.find i).map (overwritten id f) := by
  rw [find, modify, List.find?_map]
  have hp : (fun row : HostTransportConfig => decide (row.id = i)) ∘ overwritten id f =
      fun row => decide (row.id = i) := by
    funext row
    simp
  rw [hp]
  rfl

theorem find_modify_other {table : ConfigTable} {id i : String}
    (f : HostTransportConfig → HostTransportConfig) (h : i ≠ id) :
    (table.modify id f).find i = table.find i := by
  rw [find_modify]
  cases hi : table.find i with
  | none => rfl
  | some row =>
    have hne : row.id ≠ id := (find_id hi).trans_ne h
    rw [Option.map_some, overwritten, if_neg hne]

theorem find_insert {table : ConfigTable} {row old : HostTransportConfig} {i : String}
    {h : table.find row.id = none} (hold : table.find i = some old) :
    (table.insert row h).find i = some old := by
  rw [find, insert, List.find?_append]
  have hfound : table.rows.find? (fun r => decide (r.id = i)) = some old := hold
  rw [hfound]
  rfl

theorem find_erase_other (table : ConfigTable) {id i : String} (h : i ≠ id) :
    (table.erase id).find i = table.find i := by
  rw [find, erase, List.find?_filter, find]
  apply congrArg (fun p => List.find? p table.rows)
  funext row
  by_cases hi : row.id = i
  · simp [hi, h]
  · simp [hi]

theorem mem_erase {table : ConfigTable} {id : String} {row : HostTransportConfig} :
    row ∈ (table.erase id).rows ↔ row ∈ table.rows ∧ row.id ≠ id := by
  simp [erase]

end ConfigTable

/-- A row and a transport say the same four things. -/
def Describes (row : ConfigData) (t : HostTransport) : Prop :=
  row.kind = t.kind.text ∧ row.bindAddress = t.bindAddress ∧ row.port = t.port ∧
    row.switchProfile = t.switchProfile.text

instance (row : ConfigData) (t : HostTransport) : Decidable (Describes row t) := by
  unfold Describes
  infer_instance

/-- The configs and the listeners `running` knows of. -/
structure HostTransportManagerService where
  configs : ConfigTable
  running : String → Option HostTransport

namespace HostTransportManagerService

def toDto (m : HostTransportManagerService) (row : HostTransportConfig) :
    Except Exception HostTransportConfigDto := do
  let kind ← requireKind (some row.kind)
  let switchProfile ← requireSwitch row.switchProfile
  let status := match m.running row.id with
    | some live => live.status
    | none => ⟨kind, row.id, false, row.bindAddress, row.port, switchProfile⟩
  .ok {
    id := row.id
    name := row.name
    kind
    bindAddress := row.bindAddress
    port := row.port
    switchProfile
    tlsEnabled := row.tlsEnabled
    enabled := row.enabled
    isPrimary := row.isPrimary
    notes := row.notes
    status }

/-- `this.running.has(id)`. -/
def has (m : HostTransportManagerService) (id : String) : Bool := (m.running id).isSome

def setRunning (m : HostTransportManagerService) (id : String) (t : Option HostTransport) :
    HostTransportManagerService :=
  { m with running := Function.update m.running id t }

def setEnabled (m : HostTransportManagerService) (id : String) (enabled : Bool) :
    HostTransportManagerService :=
  { m with configs := m.configs.setEnabled id enabled }

end HostTransportManagerService

/-- The kind and the switch profile of a row are ones the service knows. -/
def Known (row : ConfigData) : Prop :=
  (requireKind (some row.kind)).isOk ∧ (requireSwitch row.switchProfile).isOk

instance (row : ConfigData) : Decidable (Known row) := by
  unfold Known
  infer_instance

theorem toDto_isOk (m : HostTransportManagerService) (row : HostTransportConfig) :
    (m.toDto row).isOk = true ↔ Known row.toConfigData := by
  rw [HostTransportManagerService.toDto, Known]
  cases requireKind (some row.kind) with
  | error e => simp [bind, Except.bind, Except.isOk, Except.toBool]
  | ok k =>
    cases requireSwitch row.switchProfile with
    | error e => simp [bind, Except.bind, Except.isOk, Except.toBool]
    | ok p => simp [bind, Except.bind, Except.isOk, Except.toBool]

theorem buildTransport_isOk (ref : Nat) (row : HostTransportConfig) :
    (buildTransport ref row).isOk = true ↔ Known row.toConfigData := by
  rw [buildTransport, Known]
  cases requireKind (some row.kind) with
  | error e => simp [bind, Except.bind, Except.isOk, Except.toBool]
  | ok k =>
    cases requireSwitch row.switchProfile with
    | error e => simp [bind, Except.bind, Except.isOk, Except.toBool]
    | ok p => cases k <;> simp [bind, Except.bind, Except.isOk, Except.toBool]

end AtmXfs.Host
