import AtmXfs.Host.Manager
import AtmXfs.Host.Toggle

namespace AtmXfs.Host

open Runs

/-- The unique name, for a row other than that of `id`. -/
def ConfigTable.taken (table : ConfigTable) (id name : String) : Bool :=
  table.rows.any fun row => row.id ≠ id ∧ row.name = name

/-- The database refuses a name that another row has. -/
def Statement.refused (fresh : String) (table : ConfigTable) : Statement → Bool
  | .create data => table.taken fresh data.name
  | .write id data => table.taken id data.name
  | _ => false

/-- What a call comes upon: how the start of a listener settles, how the stop of each one does, and
the id of a new row. -/
structure SocketAnswers where
  start : Settled Unit
  stop : String → Settled Unit
  fresh : String

def Settled.move (c : Nat) : Settled Unit → Option Move
  | .returns _ => some (.settles c)
  | .throws _ => some (.fails c)
  | .never => none

namespace Listeners

/-- The next move of the call `c`, if it is not over. -/
def following (o : SocketAnswers) (c : Nat) (s : Listeners) : Option Move :=
  match s.calls c with
  | none => none
  | some (.asked q _) =>
    if q.refused o.fresh s.configs then some (.fails c) else some (.executes c o.fresh)
  | some (.starting _) => o.start.move c
  | some (.stopping row _ _) => (o.stop row.id).move c
  | some (.told _ _) => some (.resumes c)
  | some (.started _) => some (.resumes c)
  | some (.stopped _ _) => some (.resumes c)

/-- Only the call `c` moves. -/
def Alone (o : SocketAnswers) (c : Nat) (s t : Listeners) : Prop :=
  Reaches step (fun s m => s.following o c = some m) s t

/-- The operation is called once, as the call `c`, and goes on alone until it is over. -/
def Performs (o : SocketAnswers) (c : Nat) (op : Operation) (s t : Listeners) : Prop :=
  ∃ u, s.step (.call c op) = some u ∧ Alone o c u t ∧ t.calls c = none

variable {s : Listeners} {c : Nat} {o : SocketAnswers}

/-- An operation ends in one state only. -/
theorem Performs.unique {op : Operation} {t t' : Listeners} (h : Performs o c op s t)
    (h' : Performs o c op s t') : t' = t := by
  obtain ⟨u, hu, hrun, hover⟩ := h
  obtain ⟨u', hu', hrun', hover'⟩ := h'
  cases hu.symm.trans hu'
  have hend : ∀ v : Listeners, v.calls c = none → ∀ m, ¬v.following o c = some m := by
    intro v hv m hm
    rw [following, hv] at hm
    cases hm
  exact Reaches.unique (fun v a b ha hb => Option.some.inj (ha.symm.trans hb)) (hend t' hover')
    (hend t hover) hrun' hrun

/-- A statement that executes is answered, and the call goes on behind it. -/
theorem answered {q : Statement} {next : Next} {a : Answer} {table : ConfigTable}
    (hcall : s.calls c = some (.asked q next)) (hfree : q.refused o.fresh s.configs = false)
    (hexec : s.configs.execute o.fresh q = some (a, table)) :
    ∃ ref t, Alone o c s t ∧ t.toHostTransportManagerService = ⟨table, s.running⟩ ∧
      t.calls c = t.resume ref next a := by
  let u := { s with configs := table }.put c (some (.told a next))
  have hexecutes : s.step (.executes c o.fresh) = some u := by
    show (s.calls c).bind (s.executes c o.fresh) = some u
    rw [hcall, Option.bind_some, executes, hexec]
  have hasks : s.following o c = some (.executes c o.fresh) := by
    rw [following, hcall]
    simp only [hfree, Bool.false_eq_true, if_false]
  have htold : u.calls c = some (.told a next) := put_self ..
  let t := { u with built := u.built + 1 }.put c (u.resume u.built next a)
  have hresumes : u.step (.resumes c) = some t := by
    show (u.calls c).bind (u.resumes c) = some t
    rw [htold]
    rfl
  have hgoes : u.following o c = some (.resumes c) := by rw [following, htold]
  exact ⟨u.built, t, .head hasks hexecutes (.head hgoes hresumes (.refl t)), rfl, put_self ..⟩

/-- A row is looked up. -/
theorem found {id : String} {next : Next} (hcall : s.calls c = some (.asked (.find id) next)) :
    ∃ ref t, Alone o c s t ∧ t.toHostTransportManagerService = s.toHostTransportManagerService ∧
      t.calls c = t.resume ref next (.row (s.configs.find id)) := by
  have hexec : s.configs.execute o.fresh (.find id) =
      some (.row (s.configs.find id), s.configs) := rfl
  exact answered hcall rfl hexec

/-- An operation begins with the lookup of a row. -/
theorem begun {op : Operation} {id : String} {next : Next} (hidle : s.calls c = none)
    (hop : op.begin = some (.asked (.find id) next)) :
    ∃ ref u t, s.step (.call c op) = some u ∧ Alone o c u t ∧
      t.toHostTransportManagerService = s.toHostTransportManagerService ∧
      t.calls c = t.resume ref next (.row (s.configs.find id)) := by
  let u := s.put c (some (.asked (.find id) next))
  have hcalled : s.step (.call c op) = some u := by
    rw [step, if_pos hidle, hop]
  have hasked : u.calls c = some (.asked (.find id) next) := put_self ..
  obtain ⟨ref, t, hfound, hsame, hnext⟩ := found hasked
  exact ⟨ref, u, t, hcalled, hfound, hsame, hnext⟩

/-- The enabled flag of a stored row is written. -/
theorem flagged {id : String} {enabled : Bool} {next : Next} {row : HostTransportConfig}
    (hcall : s.calls c = some (.asked (.setEnabled id enabled) next))
    (hrow : s.configs.find id = some row) :
    ∃ ref t, Alone o c s t ∧
      t.toHostTransportManagerService = s.toHostTransportManagerService.setEnabled id enabled ∧
      t.calls c = t.resume ref next .done := by
  have hexec : s.configs.execute o.fresh (.setEnabled id enabled) =
      some (.done, s.configs.setEnabled id enabled) := by
    rw [ConfigTable.execute, hrow]
    rfl
  exact answered hcall rfl hexec

theorem buildTransport_configId {ref : Nat} {row : HostTransportConfig} {t : HostTransport}
    (h : buildTransport ref row = .ok t) : t.configId = row.id := by
  rw [buildTransport] at h
  cases hkind : requireKind (some row.kind) with
  | error e =>
    rw [hkind] at h
    cases h
  | ok kind =>
    cases hswitch : requireSwitch row.switchProfile with
    | error e =>
      rw [hkind, hswitch] at h
      cases h
    | ok profile =>
      rw [hkind, hswitch] at h
      cases kind <;> cases h <;> rfl

/-- An awaited call that throws ends its caller. -/
theorem rejected {call : Call} {t : Listeners} (hcall : s.calls c = some call)
    (hfollows : s.following o c = some (.fails c)) (hrejects : s.rejects c call = some t) :
    Alone o c s t := by
  have hfails : s.step (.fails c) = some t := by
    show (s.calls c).bind (s.rejects c) = some t
    rw [hcall]
    exact hrejects
  exact .head hfollows hfails (.refl t)

/-- Alone, a call that is about to start a listener does what `startConfig` does. -/
theorem startConfig_alone (hstart : o.start ≠ .never) {id : String}
    (hcall : s.calls c = some (.asked (.find id) (.start id))) :
    ∃ ref t, Alone o c s t ∧ t.calls c = none ∧ t.toHostTransportManagerService =
      (s.toHostTransportManagerService.startConfig ref o.start id).2 := by
  obtain ⟨ref, t, hfound, hself, hnext⟩ := found hcall
  have hresult := HostTransportManagerService.startConfig.eq_def ref o.start
    s.toHostTransportManagerService id
  cases hrow : s.configs.find id with
  | none =>
    rw [hrow] at hnext hresult
    exact ⟨ref, t, hfound, hnext, by rw [hresult, hself]⟩
  | some row =>
    have hid : row.id = id := ConfigTable.find_id hrow
    rw [hrow] at hnext hresult
    simp only at hresult
    cases hhas : s.has id with
    | true =>
      have hover : t.calls c = none := by
        rw [hnext, hself]
        show (if s.has id then none else _) = none
        rw [hhas, if_pos rfl]
      rw [hhas, if_pos rfl] at hresult
      exact ⟨ref, t, hfound, hover, by rw [hresult, hself]⟩
    | false =>
      rw [hhas, if_neg Bool.false_ne_true] at hresult
      simp only [HostTransportManagerService.resume, hself, hhas, Bool.false_eq_true, if_false]
        at hnext
      cases hbuild : buildTransport ref row with
      | error e =>
        simp only [hbuild] at hnext hresult
        exact ⟨ref, t, hfound, hnext, by rw [hresult, hself]⟩
      | ok listener =>
        simp only [hbuild] at hnext hresult
        have hbuilt : t.calls c = some (.starting listener) := hnext
        have hmoves : t.following o c = o.start.move c := by rw [following, hbuilt]
        cases hsettled : o.start with
        | never => exact absurd hsettled hstart
        | throws e =>
          rw [hsettled] at hmoves hresult
          refine ⟨ref, t.put c none, hfound.trans (rejected hbuilt hmoves rfl), put_self .., ?_⟩
          rw [hresult]
          exact hself
        | returns _ =>
          rw [hsettled] at hmoves hresult
          have hlistener : listener.configId = id := (buildTransport_configId hbuild).trans hid
          let u := { t with up := listener :: t.up }.put c (some (.started listener))
          have hsettles : t.step (.settles c) = some u := by
            show (t.calls c).bind (t.settles c) = some u
            rw [hbuilt]
            rfl
          have hstarted : u.calls c = some (.started listener) := put_self ..
          let v := (u.setRunning id (some listener)).put c
            (some (.asked (.setEnabled id true) .answer))
          have hresumes : u.step (.resumes c) = some v := by
            show (u.calls c).bind (u.resumes c) = some v
            rw [hstarted]
            show some ((u.setRunning listener.configId (some listener)).put c
              (some (.asked (.setEnabled listener.configId true) .answer))) = some v
            rw [hlistener]
          have hgoes : u.following o c = some (.resumes c) := by rw [following, hstarted]
          have hasked : v.calls c = some (.asked (.setEnabled id true) .answer) := put_self ..
          have hstored : v.configs.find id = some row := by
            show t.configs.find id = some row
            rw [hself]
            exact hrow
          obtain ⟨ref', w, hflagged, hwritten, hover⟩ := flagged hasked hstored
          refine ⟨ref, w, hfound.trans (.head hmoves hsettles (.head hgoes hresumes hflagged)), hover,
            ?_⟩
          rw [hresult, hwritten]
          show (t.toHostTransportManagerService.setRunning id (some listener)).setEnabled id true = _
          rw [hself]

/-- Once the flag is cleared, `stopConfig` answers with the row, or throws over it. -/
theorem cleared_alone {id : String} {row : HostTransportConfig} {caller : Caller}
    (hcall : s.calls c = some (.asked (.setEnabled id false) (.cleared row caller)))
    (hrow : s.configs.find id = some row) :
    ∃ t, Alone o c s t ∧
      t.toHostTransportManagerService = s.toHostTransportManagerService.setEnabled id false ∧
      t.calls c = match Settled.ofExcept (t.toDto { row with enabled := false }) with
        | .returns _ => t.resumeCaller caller
        | _ => none := by
  obtain ⟨ref, t, hflagged, hstate, hnext⟩ := flagged hcall hrow
  refine ⟨t, hflagged, hstate, ?_⟩
  rw [hnext]
  show (if Known row.toConfigData then t.resumeCaller caller else none) = _
  have hknown := toDto_isOk t.toHostTransportManagerService { row with enabled := false }
  cases hdto : t.toDto { row with enabled := false } with
  | ok dto =>
    rw [hdto] at hknown
    rw [if_pos (hknown.mp rfl)]
    rfl
  | error e =>
    rw [hdto] at hknown
    rw [if_neg fun h => Bool.false_ne_true (hknown.mpr h)]
    rfl

/-- Alone, a call that is about to stop a listener does what `stopConfig` does, and its caller goes
on if that returns. -/
theorem stopConfig_alone {id : String} (hstop : o.stop id ≠ .never)
    {caller : Caller} (hcall : s.calls c = some (.asked (.find id) (.stop id caller))) :
    ∃ t, Alone o c s t ∧ t.toHostTransportManagerService =
        (s.toHostTransportManagerService.stopConfig (o.stop id) id).2 ∧
      t.calls c = match (s.toHostTransportManagerService.stopConfig (o.stop id) id).1 with
        | .returns _ => t.resumeCaller caller
        | _ => none := by
  obtain ⟨ref, t, hfound, hself, hnext⟩ := found hcall
  have hresult := HostTransportManagerService.stopConfig.eq_def (o.stop id)
    s.toHostTransportManagerService id
  cases hrow : s.configs.find id with
  | none =>
    rw [hrow] at hnext hresult
    rw [hresult]
    exact ⟨t, hfound, hself, hnext⟩
  | some row =>
    have hid : row.id = id := ConfigTable.find_id hrow
    rw [hrow] at hnext hresult
    have hstored : t.configs.find id = some row := by
      rw [hself]
      exact hrow
    cases hrunning : s.running id with
    | none =>
      have hasked : t.calls c = some (.asked (.setEnabled id false) (.cleared row caller)) := by
        rw [hnext, hself]
        simp only [HostTransportManagerService.resume, hrunning]
      have hcleared : s.toHostTransportManagerService.setRunning id none =
          s.toHostTransportManagerService := by
        rw [HostTransportManagerService.setRunning, ← hrunning, Function.update_eq_self]
      have hhas : s.has id = false := by
        rw [HostTransportManagerService.has, hrunning]
        rfl
      simp only [hhas, Bool.false_eq_true, if_false, hcleared] at hresult
      obtain ⟨u, hgone, hstate, hleft⟩ := cleared_alone hasked hstored
      rw [hself] at hstate
      rw [hresult]
      refine ⟨u, hfound.trans hgone, hstate, ?_⟩
      rw [hleft, hstate]
    | some listener =>
      have hstopping : t.calls c = some (.stopping row listener caller) := by
        rw [hnext, hself]
        simp only [HostTransportManagerService.resume, hrunning]
      have hhas : s.has id = true := by
        rw [HostTransportManagerService.has, hrunning]
        rfl
      simp only [hhas, if_true] at hresult
      have hmoves : t.following o c = (o.stop id).move c := by
        rw [following, hstopping]
        simp only [hid]
      cases hsettled : o.stop id with
      | never => exact absurd hsettled hstop
      | throws e =>
        rw [hsettled] at hmoves hresult
        rw [hresult]
        exact ⟨t.put c none, hfound.trans (rejected hstopping hmoves rfl), hself, put_self ..⟩
      | returns _ =>
        rw [hsettled] at hmoves hresult
        let u := { t with up := t.up.filter (· ≠ listener) }.put c (some (.stopped row caller))
        have hsettles : t.step (.settles c) = some u := by
          show (t.calls c).bind (t.settles c) = some u
          rw [hstopping]
          rfl
        have hstopped : u.calls c = some (.stopped row caller) := put_self ..
        let v := (u.setRunning id none).put c
          (some (.asked (.setEnabled id false) (.cleared row caller)))
        have hresumes : u.step (.resumes c) = some v := by
          show (u.calls c).bind (u.resumes c) = some v
          rw [hstopped]
          show some ((u.setRunning row.id none).put c
            (some (.asked (.setEnabled row.id false) (.cleared row caller)))) = some v
          rw [hid]
        have hgoes : u.following o c = some (.resumes c) := by rw [following, hstopped]
        have hasked : v.calls c = some (.asked (.setEnabled id false) (.cleared row caller)) :=
          put_self ..
        obtain ⟨w, hgone, hstate, hleft⟩ := cleared_alone hasked hstored
        have hv : v.toHostTransportManagerService =
            s.toHostTransportManagerService.setRunning id none := by
          show t.toHostTransportManagerService.setRunning id none = _
          rw [hself]
        rw [hv] at hstate
        rw [hresult]
        refine ⟨w, hfound.trans (.head hmoves hsettles (.head hgoes hresumes hgone)), hstate, ?_⟩
        rw [hleft, hstate]

/-- Alone, the loop of `setActive` does what `stopPeers` does. -/
theorem stopPeers_alone (hstop : ∀ id, o.stop id ≠ .never)
    {id : String} {peers : List HostTransportConfig}
    (hcall : s.calls c = some (s.stopNext id peers)) :
    ∃ t, Alone o c s t ∧ t.toHostTransportManagerService =
        (s.toHostTransportManagerService.stopPeers o.stop peers).2 ∧
      t.calls c = match (s.toHostTransportManagerService.stopPeers o.stop peers).1 with
        | .returns _ => some (.asked (.find id) (.start id))
        | _ => none := by
  induction peers generalizing s with
  | nil => exact ⟨s, .refl s, rfl, hcall⟩
  | cons peer peers ih =>
    rw [HostTransportManagerService.stopNext] at hcall
    rw [HostTransportManagerService.stopPeers]
    by_cases hhas : s.has peer.id = true
    · rw [if_pos hhas] at hcall
      simp only [hhas, if_true]
      obtain ⟨t, hstopped, hstate, hnext⟩ := stopConfig_alone (hstop peer.id) hcall
      rcases hresult : s.toHostTransportManagerService.stopConfig (o.stop peer.id) peer.id with
        ⟨a | e | _, m⟩
      · rw [hresult] at hstate hnext
        obtain ⟨u, hrest, hlast, hgoes⟩ := ih hnext
        rw [hstate] at hlast hgoes
        exact ⟨u, hstopped.trans hrest, hlast, hgoes⟩
      · rw [hresult] at hstate hnext
        exact ⟨t, hstopped, hstate, hnext⟩
      · rw [hresult] at hstate hnext
        exact ⟨t, hstopped, hstate, hnext⟩
    · rw [if_neg hhas] at hcall
      simp only [hhas, Bool.false_eq_true, if_false]
      exact ih hcall

/-- The interleaved service, left to one call of `setActive`, does what `setActive` does. -/
theorem setActive_alone (hstart : o.start ≠ .never) (hstop : ∀ id, o.stop id ≠ .never)
    (hidle : s.calls c = none) (id : String) :
    ∃ ref t, Performs o c (.setActive id) s t ∧ t.toHostTransportManagerService =
        (s.toHostTransportManagerService.setActive ref o.start o.stop id).2 ∧
      ∀ t', Performs o c (.setActive id) s t' → t' = t := by
  suffices h : ∃ ref t, Performs o c (.setActive id) s t ∧ t.toHostTransportManagerService =
      (s.toHostTransportManagerService.setActive ref o.start o.stop id).2 by
    obtain ⟨ref, t, hperforms, hstate⟩ := h
    exact ⟨ref, t, hperforms, hstate, fun t' h' => hperforms.unique h'⟩
  have hop : (Operation.setActive id).begin = some (.asked (.find id) (.activate id)) := rfl
  obtain ⟨ref, u, t, hcalled, hbegun, hself, hnext⟩ := begun hidle hop
  cases hrow : s.configs.find id with
  | none =>
    rw [hrow] at hnext
    refine ⟨ref, t, ⟨u, hcalled, hbegun, hnext⟩, ?_⟩
    rw [hself, HostTransportManagerService.setActive, hrow]
  | some target =>
    rw [hrow] at hnext
    have hpeers : t.calls c = some (.asked (.sameKind target) (.toggle id)) := hnext
    have hexec : t.configs.execute o.fresh (.sameKind target) =
        some (.rows (t.sameKind target), t.configs) := rfl
    obtain ⟨ref', v, hlisted, hsame', hloop⟩ := answered hpeers rfl hexec
    have hself' : v.toHostTransportManagerService = s.toHostTransportManagerService :=
      Eq.trans hsame' hself
    have hnextPeer : v.calls c = some (v.stopNext id (s.sameKind target)) := by
      rw [hloop, hself]
      rfl
    obtain ⟨w, hstopped, hstate, hgoes⟩ := stopPeers_alone hstop hnextPeer
    rw [hself'] at hstate hgoes
    have hreached : Alone o c u w := hbegun.trans (hlisted.trans hstopped)
    rcases hresult : s.toHostTransportManagerService.stopPeers o.stop (s.sameKind target) with
      ⟨a | e | _, m⟩
    · rw [hresult] at hstate hgoes
      obtain ⟨ref'', x, hstarted, hover, hlast⟩ := startConfig_alone hstart hgoes
      rw [hstate] at hlast
      refine ⟨ref'', x, ⟨u, hcalled, hreached.trans hstarted, hover⟩, ?_⟩
      rw [hlast]
      simp only [HostTransportManagerService.setActive, hrow, hresult]
    · rw [hresult] at hstate hgoes
      refine ⟨ref, w, ⟨u, hcalled, hreached, hgoes⟩, ?_⟩
      rw [hstate]
      simp only [HostTransportManagerService.setActive, hrow, hresult]
    · rw [hresult] at hstate hgoes
      refine ⟨ref, w, ⟨u, hcalled, hreached, hgoes⟩, ?_⟩
      rw [hstate]
      simp only [HostTransportManagerService.setActive, hrow, hresult]

/-- One switch takes over from another. -/
theorem setActive_alone_twoSwitches :
    let s : Listeners := ⟨HostTransportManagerService.twoSwitches, [], 0, fun _ => none⟩
    let o : SocketAnswers := ⟨.returns (), fun _ => .returns (), ""⟩
    ∃ ref t, Performs o 0 (.setActive "b") s t ∧ t.toHostTransportManagerService =
        (s.toHostTransportManagerService.setActive ref o.start o.stop "b").2 ∧
      ∀ t', Performs o 0 (.setActive "b") s t' → t' = t :=
  setActive_alone (fun h => by cases h) (fun _ h => by cases h) rfl "b"

end Listeners

end AtmXfs.Host
