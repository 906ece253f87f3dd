import AtmXfs.Host.Listeners

namespace AtmXfs.Host

/-- How a promise ends, if it does. -/
inductive Settled (α : Type*) where
  | returns (a : α)
  | throws (e : Exception)
  | never

def Settled.ofExcept {α : Type*} : Except Exception α → Settled α
  | .ok a => .returns a
  | .error e => .throws e

namespace HostTransportManagerService

/-- `startConfig` with nothing else going on; `start` is how the listener's `start` ends. -/
def startConfig (ref : Nat) (start : Settled Unit) (m : HostTransportManagerService)
    (id : String) : Settled HostTransportConfigDto × HostTransportManagerService :=
  match m.configs.find id with
  | none => (.throws (notFound id), m)
  | some row =>
    if m.has id then (.ofExcept (m.toDto row), m)
    else
      match buildTransport ref row with
      | .error e => (.throws e, m)
      | .ok transport =>
        match start with
        | .never => (.never, m)
        | .throws e => (.throws e, m)
        | .returns _ =>
          let m := (m.setRunning id (some transport)).setEnabled id true
          (.ofExcept (m.toDto { row with enabled := true }), m)

/-- `stopConfig` with nothing else going on; `stop` is how the listener's `stop` ends. -/
def stopConfig (stop : Settled Unit) (m : HostTransportManagerService) (id : String) :
    Settled HostTransportConfigDto × HostTransportManagerService :=
  match m.configs.find id with
  | none => (.throws (notFound id), m)
  | some row =>
    match if m.has id then stop else .returns () with
    | .never => (.never, m)
    | .throws e => (.throws e, m)
    | .returns _ =>
      let m := (m.setRunning id none).setEnabled id false
      (.ofExcept (m.toDto { row with enabled := false }), m)

/-- The loop of `setActive` over the other configs of the kind. -/
def stopPeers (stop : String → Settled Unit) (m : HostTransportManagerService) :
    List HostTransportConfig → Settled Unit × HostTransportManagerService
  | [] => (.returns (), m)
  | peer :: peers =>
    if m.has peer.id then
      match m.stopConfig (stop peer.id) peer.id with
      | (.returns _, m) => m.stopPeers stop peers
      | (.throws e, m) => (.throws e, m)
      | (.never, m) => (.never, m)
    else m.stopPeers stop peers

def sameKind (m : HostTransportManagerService) (target : HostTransportConfig) :
    List HostTransportConfig :=
  m.configs.rows.filter fun row => row.kind = target.kind ∧ row.id ≠ target.id

def setActive (ref : Nat) (start : Settled Unit) (stop : String → Settled Unit)
    (m : HostTransportManagerService) (id : String) :
    Settled HostTransportConfigDto × HostTransportManagerService :=
  match m.configs.find id with
  | none => (.throws (notFound id), m)
  | some target =>
    match m.stopPeers stop (m.sameKind target) with
    | (.returns _, m) => m.startConfig ref start id
    | (.throws e, m) => (.throws e, m)
    | (.never, m) => (.never, m)

/-- The service with the listeners of `ids` stopped and their flags cleared. -/
def without (m : HostTransportManagerService) (ids : List String) : HostTransportManagerService :=
  ids.foldl (fun m id => (m.setRunning id none).setEnabled id false) m

/-- The ids of the peers whose listener stops before the first failure. A peer whose row has a
kind or a switch profile outside the lists stops and then fails. -/
def stopped (stop : String → Settled Unit) : List HostTransportConfig → List String
  | [] => []
  | peer :: peers =>
    match stop peer.id with
    | .returns _ => if Known peer.toConfigData then peer.id :: stopped stop peers else [peer.id]
    | _ => []

/-- One stopped listener. -/
def stopOne (m : HostTransportManagerService) (id : String) : HostTransportManagerService :=
  (m.setRunning id none).setEnabled id false

@[simp] theorem without_nil (m : HostTransportManagerService) : m.without [] = m := rfl

@[simp] theorem without_cons (m : HostTransportManagerService) (id : String) (ids : List String) :
    m.without (id :: ids) = (m.stopOne id).without ids := rfl

theorem stopOne_has_other (m : HostTransportManagerService) {id i : String} (h : i ≠ id) :
    (m.stopOne id).has i = m.has i := by
  simp [stopOne, setEnabled, setRunning, has, Function.update_of_ne h]

theorem stopOne_find_other (m : HostTransportManagerService) {id i : String} (h : i ≠ id) :
    (m.stopOne id).configs.find i = m.configs.find i :=
  ConfigTable.find_modify_other _ h

theorem without_running (m : HostTransportManagerService) (ids : List String) (i : String) :
    (m.without ids).running i = if i ∈ ids then none else m.running i := by
  induction ids generalizing m with
  | nil => simp
  | cons id ids ih =>
    rw [without_cons, ih]
    by_cases hi : i = id
    · simp [hi, stopOne, setEnabled, setRunning]
    · have hkeep : (m.stopOne id).running i = m.running i := Function.update_of_ne hi _ _
      simp [hi, hkeep]

/-- Clear the flag of a row that is named. -/
def cleared (ids : List String) (row : HostTransportConfig) : HostTransportConfig :=
  if row.id ∈ ids then { row with enabled := false } else row

theorem without_rows (m : HostTransportManagerService) (ids : List String) :
    (m.without ids).configs.rows = m.configs.rows.map (cleared ids) := by
  induction ids generalizing m with
  | nil =>
    have hnone : cleared [] = id := by
      funext row
      simp [cleared]
    rw [hnone, List.map_id, without_nil]
  | cons id ids ih =>
    rw [without_cons, ih]
    have hstep : (m.stopOne id).configs.rows = m.configs.rows.map (cleared [id]) := by
      apply List.map_congr_left
      intro row _
      by_cases hid : row.id = id
      · simp [ConfigTable.overwritten, cleared, hid]
      · simp [ConfigTable.overwritten, cleared, hid]
    rw [hstep, List.map_map]
    apply List.map_congr_left
    intro row _
    by_cases hid : row.id = id
    · simp [cleared, hid]
    · simp [cleared, hid]

/-- What stopping one running peer does. -/
theorem stopConfig_running {m : HostTransportManagerService} {peer : HostTransportConfig}
    (stop : Settled Unit) (hrow : m.configs.find peer.id = some peer)
    (hrun : m.has peer.id = true) :
    m.stopConfig stop peer.id =
      match stop with
      | .never => (.never, m)
      | .throws e => (.throws e, m)
      | .returns _ =>
        (.ofExcept ((m.stopOne peer.id).toDto { peer with enabled := false }),
          m.stopOne peer.id) := by
  rw [stopConfig, hrow]
  simp only [hrun, if_true]
  cases stop <;> rfl

theorem ofExcept_of_not_known (m : HostTransportManagerService) (row : HostTransportConfig)
    (h : ¬ Known row.toConfigData) : ∃ e, Settled.ofExcept (m.toDto row) = .throws e := by
  cases hdto : m.toDto row with
  | error e => exact ⟨e, rfl⟩
  | ok dto =>
    have hok : (m.toDto row).isOk = true := by rw [hdto]; rfl
    exact absurd ((toDto_isOk m row).mp hok) h

theorem ofExcept_of_known (m : HostTransportManagerService) (row : HostTransportConfig)
    (h : Known row.toConfigData) : ∃ dto, Settled.ofExcept (m.toDto row) = .returns dto := by
  have hok := (toDto_isOk m row).mpr h
  cases hdto : m.toDto row with
  | error e =>
    rw [hdto] at hok
    cases hok
  | ok dto => exact ⟨dto, rfl⟩

/-- The peers that are running. -/
def runningOf (m : HostTransportManagerService) (peers : List HostTransportConfig) :
    List HostTransportConfig := peers.filter fun peer => m.has peer.id

theorem without_has (m : HostTransportManagerService) (ids : List String) (i : String) :
    (m.without ids).has i = (decide (i ∉ ids) && m.has i) := by
  rw [has, without_running]
  split_ifs with h
  · simp [h]
  · simp [h, has]

/-- Wherever the loop ends, the peers that had stopped are stopped and nothing else has
changed; it returns only when no peer is left running. -/
theorem stopPeers_spec (stop : String → Settled Unit) (m : HostTransportManagerService)
    (peers : List HostTransportConfig) (hids : (peers.map (·.id)).Nodup)
    (hstored : ∀ peer ∈ peers, m.configs.find peer.id = some peer) :
    (m.stopPeers stop peers).2 = m.without (stopped stop (m.runningOf peers)) ∧
      ((m.stopPeers stop peers).1 = .returns () →
        ∀ peer ∈ peers, (m.stopPeers stop peers).2.has peer.id = false) := by
  induction peers generalizing m with
  | nil => exact ⟨rfl, fun _ peer hmem => absurd hmem List.not_mem_nil⟩
  | cons peer peers ih =>
    have hnodup := List.nodup_cons.mp hids
    have hother : ∀ p ∈ peers, p.id ≠ peer.id := by
      intro p hp heq
      exact hnodup.1 (List.mem_map.mpr ⟨p, hp, heq⟩)
    have htail : ∀ p ∈ peers, m.configs.find p.id = some p :=
      fun p hp => hstored p (List.mem_cons_of_mem _ hp)
    rw [stopPeers]
    cases hrun : m.has peer.id with
    | false =>
      have hsame : m.runningOf (peer :: peers) = m.runningOf peers := by simp [runningOf, hrun]
      obtain ⟨hstate, hleft⟩ := ih m hnodup.2 htail
      rw [if_neg Bool.false_ne_true, hsame]
      refine ⟨hstate, ?_⟩
      intro hret p hp
      cases List.mem_cons.mp hp with
      | inl heq => rw [heq, hstate, without_has, hrun, Bool.and_false]
      | inr hp => exact hleft hret p hp
    | true =>
      have hmore : m.runningOf (peer :: peers) = peer :: m.runningOf peers := by
        simp [runningOf, hrun]
      rw [if_pos rfl, stopConfig_running _ (hstored peer List.mem_cons_self) hrun, hmore, stopped]
      cases stop peer.id with
      | never => exact ⟨rfl, fun h => by cases h⟩
      | throws e => exact ⟨rfl, fun h => by cases h⟩
      | returns _ =>
        by_cases hknown : Known peer.toConfigData
        · obtain ⟨dto, hdto⟩ := ofExcept_of_known (m.stopOne peer.id)
            { peer with enabled := false } hknown
          have hfound : ∀ p ∈ peers, (m.stopOne peer.id).configs.find p.id = some p := by
            intro p hp
            rw [stopOne_find_other m (hother p hp)]
            exact htail p hp
          have hsame : (m.stopOne peer.id).runningOf peers = m.runningOf peers := by
            apply List.filter_congr
            intro p hp
            exact stopOne_has_other m (hother p hp)
          obtain ⟨hstate, hleft⟩ := ih (m.stopOne peer.id) hnodup.2 hfound
          simp only [hdto, if_pos hknown, without_cons]
          rw [hsame] at hstate
          refine ⟨hstate, ?_⟩
          intro hret p hp
          cases List.mem_cons.mp hp with
          | inl heq =>
            have hgone : (m.stopOne peer.id).has peer.id = false := by
              simp [stopOne, setEnabled, setRunning, has]
            rw [heq, hstate, without_has, hgone, Bool.and_false]
          | inr hp => exact hleft hret p hp
        · obtain ⟨e, he⟩ := ofExcept_of_not_known (m.stopOne peer.id)
            { peer with enabled := false } hknown
          simp only [he, if_neg hknown]
          exact ⟨rfl, fun h => by cases h⟩

/-- A start that returns leaves the config running; one that throws changes nothing. -/
theorem startConfig_spec (ref : Nat) (start : Settled Unit) (m : HostTransportManagerService)
    (id : String) :
    match m.startConfig ref start id with
    | (.returns _, m') => m'.has id = true ∧ ∀ i, i ≠ id → m'.has i = m.has i
    | (.throws _, m') => m' = m
    | (.never, m') => m' = m := by
  rw [startConfig]
  cases hrow : m.configs.find id with
  | none => rfl
  | some row =>
    simp only
    cases hrun : m.has id with
    | true =>
      rw [if_pos rfl]
      cases m.toDto row with
      | error e => rfl
      | ok dto => exact ⟨hrun, fun i _ => rfl⟩
    | false =>
      rw [if_neg Bool.false_ne_true]
      cases hbuild : buildTransport ref row with
      | error e => rfl
      | ok transport =>
        cases start with
        | never => rfl
        | throws e => rfl
        | returns _ =>
          have hknown : Known row.toConfigData := by
            apply (buildTransport_isOk ref row).mp
            rw [hbuild]
            rfl
          obtain ⟨dto, hdto⟩ := ofExcept_of_known
            ((m.setRunning id (some transport)).setEnabled id true)
            { row with enabled := true } hknown
          simp only [hdto]
          constructor
          · simp [setEnabled, setRunning, has]
          · intro i hi
            simp [setEnabled, setRunning, has, Function.update_of_ne hi]

theorem sameKind_nodup (m : HostTransportManagerService) (target : HostTransportConfig) :
    ((m.sameKind target).map (·.id)).Nodup :=
  m.configs.unique.sublist (List.filter_sublist.map _)

theorem sameKind_stored (m : HostTransportManagerService) (target : HostTransportConfig) :
    ∀ peer ∈ m.sameKind target, m.configs.find peer.id = some peer := by
  intro peer hpeer
  exact ConfigTable.find_of_mem (List.mem_filter.mp hpeer).1

/-- The configs whose listener has stopped when a call of `setActive` comes to an end. -/
def stoppedBy (stop : String → Settled Unit) (m : HostTransportManagerService) (id : String) :
    List String :=
  match m.configs.find id with
  | none => []
  | some target => stopped stop (m.runningOf (m.sameKind target))

/-- `id` is running and no other config of its kind is. -/
def OnlyActive (m : HostTransportManagerService) (id : String) : Prop :=
  ∃ target, m.configs.find id = some target ∧ m.has id = true ∧
    ∀ row ∈ m.configs.rows, row.kind = target.kind → row.id ≠ id → m.has row.id = false

/-- The same configs run and the same flags are set. -/
def SameListeners (m m' : HostTransportManagerService) : Prop :=
  (∀ id, m'.has id = m.has id) ∧
    m'.configs.rows.map (fun row => (row.id, row.enabled)) =
      m.configs.rows.map fun row => (row.id, row.enabled)

/-- Everything stored but the flags. -/
def stored (m : HostTransportManagerService) : List (String × ConfigData) :=
  m.configs.rows.map fun row => (row.id, row.toConfigData)

theorem setEnabled_stored (m : HostTransportManagerService) (id : String) (enabled : Bool) :
    (m.setEnabled id enabled).stored = m.stored := by
  rw [stored, stored, setEnabled, ConfigTable.setEnabled, ConfigTable.modify, List.map_map]
  apply List.map_congr_left
  intro row _
  by_cases hid : row.id = id
  · simp [ConfigTable.overwritten, hid]
  · simp [ConfigTable.overwritten, hid]

theorem without_stored (m : HostTransportManagerService) (ids : List String) :
    (m.without ids).stored = m.stored := by
  induction ids generalizing m with
  | nil => rfl
  | cons id ids ih =>
    rw [without_cons, ih]
    exact setEnabled_stored (m.setRunning id none) id false

theorem startConfig_stored (ref : Nat) (start : Settled Unit) (m : HostTransportManagerService)
    (id : String) : (m.startConfig ref start id).2.stored = m.stored := by
  rw [startConfig]
  cases m.configs.find id with
  | none => rfl
  | some row =>
    simp only
    split_ifs with hrun
    · rfl
    · cases buildTransport ref row with
      | error e => rfl
      | ok transport =>
        cases start with
        | never => rfl
        | throws e => rfl
        | returns _ => exact setEnabled_stored (m.setRunning id (some transport)) id true

theorem mem_of_stored {m m' : HostTransportManagerService} (h : m'.stored = m.stored)
    {row : HostTransportConfig} (hrow : row ∈ m'.configs.rows) :
    ∃ old ∈ m.configs.rows, old.id = row.id ∧ old.toConfigData = row.toConfigData := by
  have hmem : (row.id, row.toConfigData) ∈ m'.stored := List.mem_map.mpr ⟨row, hrow, rfl⟩
  rw [h] at hmem
  obtain ⟨old, hold, heq⟩ := List.mem_map.mp hmem
  obtain ⟨hid, hdata⟩ := Prod.mk.inj heq
  exact ⟨old, hold, hid, hdata⟩

/-- What `setActive` returns from and throws out of, for every order of failures. -/
theorem setActive_state (ref : Nat) (start : Settled Unit) (stop : String → Settled Unit)
    (m : HostTransportManagerService) (id : String) :
    match m.setActive ref start stop id with
    | (.returns _, m') => m'.OnlyActive id
    | (.throws _, m') => m' = m.without (stoppedBy stop m id)
    | (.never, _) => True := by
  rw [setActive, stoppedBy]
  cases hrow : m.configs.find id with
  | none => rfl
  | some target =>
    simp only
    obtain ⟨hstate, hleft⟩ := stopPeers_spec stop m (m.sameKind target)
      (sameKind_nodup m target) (sameKind_stored m target)
    have htarget : target.id = id := ConfigTable.find_id hrow
    revert hstate hleft
    generalize m.stopPeers stop (m.sameKind target) = loop
    intro hstate hleft
    obtain ⟨ended, m₁⟩ := loop
    subst hstate
    cases ended with
    | never => trivial
    | throws e => rfl
    | returns _ =>
      have hstart := startConfig_spec ref start
        (m.without (stopped stop (m.runningOf (m.sameKind target)))) id
      have hdata := startConfig_stored ref start
        (m.without (stopped stop (m.runningOf (m.sameKind target)))) id
      rw [without_stored] at hdata
      simp only
      revert hstart hdata
      generalize startConfig ref start _ id = last
      intro hstart hdata
      obtain ⟨result, m'⟩ := last
      cases result with
      | never => trivial
      | throws e => exact hstart
      | returns dto =>
        have hmem : target ∈ m.configs.rows := ConfigTable.find_mem hrow
        obtain ⟨now, hnow, hid, hsame⟩ := mem_of_stored hdata.symm hmem
        refine ⟨now, ?_, hstart.1, ?_⟩
        · rw [← htarget, ← hid]
          exact ConfigTable.find_of_mem hnow
        · intro row hmem' hkind hne
          obtain ⟨old, hold, hoid, hodata⟩ := mem_of_stored hdata hmem'
          have hpeer : old ∈ m.sameKind target := by
            apply List.mem_filter.mpr
            refine ⟨hold, ?_⟩
            have hk : old.kind = target.kind := by
              rw [hodata, hkind, hsame]
            have hi : old.id ≠ target.id := by
              rw [hoid, htarget]
              exact hne
            simp [hk, hi]
          rw [hstart.2 row.id hne, ← hoid]
          exact hleft rfl old hpeer

/-- The toggle ends with one listener of the kind; when it fails, the peers that had stopped by
then stay stopped with their flags cleared, and nothing else has changed. -/
theorem setActive_toggles (ref : Nat) (start : Settled Unit) (stop : String → Settled Unit)
    (m : HostTransportManagerService) (id : String) :
    match m.setActive ref start stop id with
    | (.returns _, m') => m'.OnlyActive id
    | (.throws _, m') =>
      (∀ i, m'.running i = if i ∈ stoppedBy stop m id then none else m.running i) ∧
        m'.configs.rows = m.configs.rows.map (cleared (stoppedBy stop m id))
    | (.never, _) => True := by
  have hstate := setActive_state ref start stop m id
  revert hstate
  generalize m.setActive ref start stop id = last
  intro hstate
  obtain ⟨result, m'⟩ := last
  cases result with
  | never => trivial
  | returns dto => exact hstate
  | throws e =>
    have hm : m' = m.without (stoppedBy stop m id) := hstate
    rw [hm]
    exact ⟨without_running m _, without_rows m _⟩

def tcpData (name : String) (port : Int) : ConfigData :=
  ⟨name, "ISO8583_TCP", "127.0.0.1", port, "JALIN", false, false, none⟩

/-- Two TCP configs, the first of them listening. -/
def twoSwitches : HostTransportManagerService where
  configs := ⟨[⟨tcpData "a" 8583, "a", true⟩, ⟨tcpData "b" 8584, "b", false⟩], by decide⟩
  running := Function.update (fun _ => none) "a"
    (some ⟨0, "a", .iso8583Tcp, "127.0.0.1", 8583, .jalin⟩)

/-- The port of `b` is taken: the toggle fails and `a` no longer listens. -/
theorem setActive_loses_peer :
    ∃ e m', twoSwitches.setActive 1 (.throws (.transport "EADDRINUSE")) (fun _ => .returns ()) "b" =
      (.throws e, m') ∧ ¬ twoSwitches.SameListeners m' := by
  refine ⟨.transport "EADDRINUSE", twoSwitches.stopOne "a", ?_, ?_⟩
  · rfl
  · intro h
    have hrun := h.1 "a"
    revert hrun
    decide

end HostTransportManagerService

end AtmXfs.Host
