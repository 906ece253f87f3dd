import AtmXfs.Cdm.Bounds

namespace AtmXfs.Cdm

open Js

/-- What has happened to the bundles, which are numbered by the DISPENSE that made them. -/
inductive Mark where
  | dispensed (bundle : Nat) (amount : Int)
  | presented (bundle : Nat) (amount : Int)
  | retracted (bundle : Nat)
  | taken (bundle : Nat) (amount : Int)
  deriving DecidableEq

/-- The event that goes with a mark. -/
def Mark.event? : Mark → Option CdmEvent
  | .presented _ amount => some (.notesPresented amount)
  | .taken _ amount => some (.notesTaken amount)
  | _ => none

/-- The device, the number of bundles so far, the bundle in the slot, the one the pending timer
was started for, and the marks, newest first. -/
structure Trail where
  device : CdmDeviceService
  bundles : Nat
  slot : Option Nat
  armed : Option Nat
  log : List Mark

namespace Trail

def start : Trail := ⟨.new initializeCassettes, 0, none, none, []⟩

def present (t : Trail) (amount : Int) : Trail :=
  match t.slot with
  | some bundle => { t with armed := some bundle, log := .presented bundle amount :: t.log }
  | none => t

def fill (t : Trail) (amount : Int) : Trail :=
  { t with
    bundles := t.bundles + 1
    slot := some t.bundles
    log := .dispensed t.bundles amount :: t.log }

def retract (t : Trail) : Trail :=
  match t.slot with
  | some bundle => { t with slot := none, armed := none, log := .retracted bundle :: t.log }
  | none => t

/-- The marks of a command that was answered with `r`. -/
def answered (t : Trail) (c : CdmCommand) (r : Except CdmError CdmResult) : Trail :=
  match c, r with
  | .dispense payload, .ok (.dispensed d) =>
    if payload.present then (t.fill d.totalDispensed).present d.totalDispensed
    else t.fill d.totalDispensed
  | .present, .ok (.presented amount) => t.present amount
  | .retract, .ok _ => t.retract
  | .reject, .ok _ => t.retract
  | .reset, _ => { t with slot := none, armed := none }
  | _, _ => t

/-- The mark of an expired timer that found `cash`. -/
def expired (t : Trail) (cash : Option PresentedCash) : Trail :=
  match t.slot, cash with
  | some bundle, some cash =>
    { t with slot := none, armed := none, log := .taken bundle cash.amount :: t.log }
  | _, _ => { t with armed := none }

def note (t : Trail) : CdmCall → Trail
  | .request commandCode payload =>
    match commandOf commandCode payload with
    | some c => t.answered c (executeCommand t.device c).1
    | none => t
  | .takeTimer => t.expired t.device.presentedCash
  | _ => t

end Trail

def trailStep (t : Trail) (call : CdmCall) : Option Trail :=
  match callStep (.whole t.device) call with
  | some (.whole s) => some { t.note call with device := s }
  | _ => none

/-- A bundle is made by one DISPENSE and presented after it; it is taken after it was presented,
not twice, and not after it was retracted. -/
def Proper (m : Mark) (older : List Mark) : Prop :=
  match m with
  | .dispensed bundle _ => ∀ amount, .dispensed bundle amount ∉ older
  | .presented bundle amount => .dispensed bundle amount ∈ older
  | .retracted _ => True
  | .taken bundle amount => .presented bundle amount ∈ older ∧
      (∀ amount, .taken bundle amount ∉ older) ∧ .retracted bundle ∉ older

def isNote : CdmEvent → Bool
  | .notesPresented _ => true
  | .notesTaken _ => true
  | _ => false

/-- The events that announce a bundle as presented or taken. -/
def notes (s : CdmDeviceService) : List CdmEvent := s.events.filter isNote

/-- These events are those of the marks, and the marks are in order. -/
structure InOrder (t : Trail) : Prop where
  events : notes t.device = (t.log.filterMap Mark.event?).reverse
  proper : Runs.Each Proper t.log

/-- When the timer expires, the bundle in the slot, if there is one, is the one the timer was
started for. -/
def TimerFits (t : Trail) : CdmCall → Prop
  | .takeTimer => ∀ bundle, t.slot = some bundle → t.armed = some bundle
  | _ => True

def Mark.bundle : Mark → Nat
  | .dispensed bundle _ => bundle
  | .presented bundle _ => bundle
  | .retracted bundle => bundle
  | .taken bundle _ => bundle

/-- The bundle is in the slot: it has been dispensed and has not left, and it has been presented
exactly if the timer was started for it. -/
structure Held (t : Trail) (bundle : Nat) (cash : PresentedCash) : Prop where
  slot : t.slot = some bundle
  inside : t.device.presentedCash = some cash
  dispensed : .dispensed bundle cash.amount ∈ t.log
  untaken : ∀ amount, .taken bundle amount ∉ t.log
  unretracted : .retracted bundle ∉ t.log
  armed : .presented bundle cash.amount ∈ t.log ↔ t.armed = some bundle

/-- What the slot, the timer and the marks have to do with each other. -/
structure Tracked (t : Trail) : Prop where
  events : notes t.device = (t.log.filterMap Mark.event?).reverse
  fresh : ∀ m ∈ t.log, m.bundle < t.bundles
  timer : ∀ bundle, t.armed = some bundle → bundle < t.bundles
  slot : (t.slot = none ∧ t.device.presentedCash = none) ∨ ∃ bundle cash, Held t bundle cash

/-- A new bundle is in the slot, whatever was there before. -/
inductive Filled (t : Trail) : Trail → Prop
  | mk (s : CdmDeviceService) (cash : PresentedCash) : s.presentedCash = some cash →
    notes s = notes t.device → Filled t { t.fill cash.amount with device := s }

inductive Presented (t : Trail) : Trail → Prop
  | mk (s : CdmDeviceService) (cash : PresentedCash) : t.device.presentedCash = some cash →
    s.presentedCash = some cash → notes s = notes t.device ++ [.notesPresented cash.amount] →
    Presented t { t.present cash.amount with device := s }

/-- What a step does to the trail. -/
inductive Change (t : Trail) (call : CdmCall) : Trail → Prop
  | filled {t' : Trail} : call ≠ .takeTimer → Filled t t' → Change t call t'
  | filledPresented {u t' : Trail} : call ≠ .takeTimer → Filled t u → Presented u t' →
    Change t call t'
  | presented {t' : Trail} : call ≠ .takeTimer → Presented t t' → Change t call t'
  | retracted (s : CdmDeviceService) : call ≠ .takeTimer → s.presentedCash = none →
    notes s = notes t.device → Change t call { t.retract with device := s }
  | reset (s : CdmDeviceService) : call ≠ .takeTimer → s.presentedCash = none →
    notes s = notes t.device →
    Change t call { t with slot := none, armed := none, device := s }
  | expired (s : CdmDeviceService) : call = .takeTimer → s.presentedCash = none →
    notes s = notes t.device ++
      (t.device.presentedCash.map fun cash => CdmEvent.notesTaken cash.amount).toList →
    Change t call { t.expired t.device.presentedCash with device := s }
  | quiet (s : CdmDeviceService) : call ≠ .takeTimer →
    s.presentedCash = t.device.presentedCash → notes s = notes t.device →
    Change t call { t with device := s }

theorem notes_emit (s : CdmDeviceService) (e : CdmEvent) :
    notes (s.emit e) = if isNote e then notes s ++ [e] else notes s := by
  show (s.events ++ [e]).filter isNote = _
  rw [List.filter_append]
  split_ifs with h
  · rw [List.filter_cons_of_pos h]
    rfl
  · rw [List.filter_cons_of_neg h]
    exact List.append_nil _

theorem notes_thresholds {s s' : CdmDeviceService} {es : List CdmEvent}
    (h : s'.events = s.events ++ es) (hes : es.all isThreshold = true) : notes s' = notes s := by
  have hnone : es.filter isNote = [] := by
    apply List.filter_eq_nil_iff.mpr
    intro e he
    have hth := List.all_eq_true.mp hes e he
    cases e with
    | cashUnitThreshold u => simp [isNote]
    | _ => simp [isThreshold] at hth
  rw [notes, h, List.filter_append, hnone, List.append_nil]
  rfl

theorem marked_events {m : Mark} {e : CdmEvent} (h : m.event? = some e) (log : List Mark) :
    ((m :: log).filterMap Mark.event?).reverse = (log.filterMap Mark.event?).reverse ++ [e] := by
  rw [List.filterMap_cons, h, List.reverse_cons]

theorem Tracked.filled {t t' : Trail} (h : Tracked t) (hf : Filled t t') : Tracked t' := by
  obtain ⟨s, cash, hcash, hnotes⟩ := hf
  have hnew : ∀ m ∈ t.log, m.bundle ≠ t.bundles := fun m hm => (h.fresh m hm).ne
  refine ⟨?_, ?_, ?_, .inr ⟨t.bundles, cash, rfl, hcash, List.mem_cons_self, ?_, ?_, ?_⟩⟩
  · show notes s = _
    rw [hnotes, h.events]
    rfl
  · intro m hm
    rcases List.mem_cons.mp hm with rfl | hold
    · exact Nat.lt_succ_self _
    · exact Nat.lt_succ_of_lt (h.fresh m hold)
  · intro bundle hb
    exact Nat.lt_succ_of_lt (h.timer bundle hb)
  · intro amount hm
    rcases List.mem_cons.mp hm with heq | hold
    · cases heq
    · exact hnew _ hold rfl
  · intro hm
    rcases List.mem_cons.mp hm with heq | hold
    · cases heq
    · exact hnew _ hold rfl
  · constructor
    · intro hm
      rcases List.mem_cons.mp hm with heq | hold
      · cases heq
      · exact absurd rfl (hnew _ hold)
    · intro harmed
      exact absurd rfl (h.timer _ harmed).ne

theorem Tracked.held {t : Trail} (h : Tracked t) {cash : PresentedCash}
    (hcash : t.device.presentedCash = some cash) : ∃ bundle, Held t bundle cash := by
  rcases h.slot with ⟨-, hnone⟩ | ⟨bundle, cash', hheld⟩
  · rw [hcash] at hnone
    cases hnone
  · have hsame := hheld.inside
    rw [hcash, Option.some.injEq] at hsame
    rw [hsame]
    exact ⟨bundle, hheld⟩

theorem Tracked.presented {t t' : Trail} (h : Tracked t) (hp : Presented t t') : Tracked t' := by
  obtain ⟨s, cash, hbefore, hafter, hnotes⟩ := hp
  obtain ⟨bundle, hheld⟩ := h.held hbefore
  have hslot := hheld.slot
  have hlast : bundle < t.bundles := h.fresh _ hheld.dispensed
  simp only [Trail.present, hslot]
  refine ⟨?_, ?_, ?_, .inr ⟨bundle, cash, rfl, hafter, ?_, ?_, ?_, ?_⟩⟩
  · rw [hnotes, h.events, marked_events rfl]
  · intro m hm
    rcases List.mem_cons.mp hm with rfl | hold
    · exact hlast
    · exact h.fresh m hold
  · intro b hb
    cases hb
    exact hlast
  · exact List.mem_cons_of_mem _ hheld.dispensed
  · intro amount hm
    rcases List.mem_cons.mp hm with heq | hold
    · cases heq
    · exact hheld.untaken amount hold
  · intro hm
    rcases List.mem_cons.mp hm with heq | hold
    · cases heq
    · exact hheld.unretracted hold
  · exact iff_of_true List.mem_cons_self rfl

/-- A step that empties the slot, with the mark it leaves if there was a bundle. -/
theorem Tracked.emptied {t : Trail} (h : Tracked t) {s : CdmDeviceService} (log : List Mark)
    (hcash : s.presentedCash = none) (hnotes : notes s = (log.filterMap Mark.event?).reverse)
    (hlog : ∀ m ∈ log, m ∈ t.log ∨ t.slot = some m.bundle) :
    Tracked { t with slot := none, armed := none, device := s, log := log } := by
  refine ⟨hnotes, ?_, nofun, .inl ⟨rfl, hcash⟩⟩
  intro m hm
  rcases hlog m hm with hold | hslot
  · exact h.fresh m hold
  · rcases h.slot with ⟨hnone, -⟩ | ⟨bundle, cash, hheld⟩
    · rw [hslot] at hnone
      cases hnone
    · have hsame := hheld.slot
      rw [hslot, Option.some.injEq] at hsame
      rw [hsame]
      exact h.fresh _ hheld.dispensed

theorem Tracked.quiet {t : Trail} (h : Tracked t) {s : CdmDeviceService}
    (hcash : s.presentedCash = t.device.presentedCash) (hnotes : notes s = notes t.device) :
    Tracked { t with device := s } := by
  refine ⟨hnotes.trans h.events, h.fresh, h.timer, ?_⟩
  rcases h.slot with ⟨hslot, hnone⟩ | ⟨bundle, cash, hheld⟩
  · exact .inl ⟨hslot, hcash.trans hnone⟩
  · exact .inr ⟨bundle, cash, hheld.slot, hcash.trans hheld.inside, hheld.dispensed, hheld.untaken,
      hheld.unretracted, hheld.armed⟩

theorem Tracked.retracted {t : Trail} (h : Tracked t) {s : CdmDeviceService}
    (hcash : s.presentedCash = none) (hnotes : notes s = notes t.device) :
    Tracked { t.retract with device := s } := by
  have hevents := hnotes.trans h.events
  cases hslot : t.slot with
  | none =>
    rcases h.slot with ⟨-, hnone⟩ | ⟨bundle, cash, hheld⟩
    · have hsame : t.retract = t := by simp only [Trail.retract, hslot]
      rw [hsame]
      exact h.quiet (hcash.trans hnone.symm) hnotes
    · rw [hheld.slot] at hslot
      cases hslot
  | some bundle =>
    have hempty := h.emptied (.retracted bundle :: t.log) hcash hevents
    simp only [Trail.retract, hslot]
    apply hempty
    intro m hm
    rcases List.mem_cons.mp hm with rfl | hold
    · exact .inr hslot
    · exact .inl hold

theorem Tracked.expired {t : Trail} (h : Tracked t) {s : CdmDeviceService}
    (hcash : s.presentedCash = none) (hnotes : notes s = notes t.device ++
      (t.device.presentedCash.map fun cash => CdmEvent.notesTaken cash.amount).toList) :
    Tracked { t.expired t.device.presentedCash with device := s } := by
  rcases h.slot with ⟨hslot, hnone⟩ | ⟨bundle, cash, hheld⟩
  · rw [hnone] at hnotes
    have hevents : notes s = (t.log.filterMap Mark.event?).reverse := by
      rw [hnotes, ← h.events]
      exact List.append_nil _
    have hempty := h.emptied t.log hcash hevents fun m hm => .inl hm
    simp only [Trail.expired, hslot]
    exact hempty
  · have hslot := hheld.slot
    have hinside := hheld.inside
    rw [hinside] at hnotes
    have hevents : notes s =
        ((Mark.taken bundle cash.amount :: t.log).filterMap Mark.event?).reverse := by
      rw [marked_events rfl, ← h.events]
      exact hnotes
    simp only [Trail.expired, hslot, hinside]
    apply h.emptied _ hcash hevents
    intro m hm
    rcases List.mem_cons.mp hm with rfl | hold
    · exact .inr hslot
    · exact .inl hold

theorem Tracked.change {t t' : Trail} {call : CdmCall} (h : Tracked t) (hc : Change t call t') :
    Tracked t' := by
  cases hc with
  | filled hcall hf => exact h.filled hf
  | filledPresented hcall hf hp => exact (h.filled hf).presented hp
  | presented hcall hp => exact h.presented hp
  | retracted s hcall hcash hnotes => exact h.retracted hcash hnotes
  | reset s hcall hcash hnotes =>
    exact h.emptied t.log hcash (hnotes.trans h.events) fun m hm => .inl hm
  | expired s hcall hcash hnotes => exact h.expired hcash hnotes
  | quiet s hcall hcash hnotes => exact h.quiet hcash hnotes

theorem proper_filled {t t' : Trail} (h : Tracked t) (hf : Filled t t') :
    Runs.Each Proper t'.log ↔ Runs.Each Proper t.log := by
  obtain ⟨s, cash, -, -⟩ := hf
  apply and_iff_right
  intro amount hm
  exact absurd rfl (h.fresh _ hm).ne

theorem proper_presented {t t' : Trail} (h : Tracked t) (hp : Presented t t') :
    Runs.Each Proper t'.log ↔ Runs.Each Proper t.log := by
  obtain ⟨s, cash, hbefore, -, -⟩ := hp
  obtain ⟨bundle, hheld⟩ := h.held hbefore
  simp only [Trail.present, hheld.slot]
  exact and_iff_right hheld.dispensed

/-- The mark of an expiry is in order exactly if the timer was started for the bundle it finds. -/
theorem proper_expired {t : Trail} (h : Tracked t) (hlog : Runs.Each Proper t.log) :
    Runs.Each Proper (t.expired t.device.presentedCash).log ↔ TimerFits t .takeTimer := by
  rcases h.slot with ⟨hslot, -⟩ | ⟨bundle, cash, hheld⟩
  · have hfits : TimerFits t .takeTimer := by
      intro bundle hb
      rw [hslot] at hb
      cases hb
    simp only [Trail.expired, hslot]
    exact iff_of_true hlog hfits
  · have hfits : TimerFits t .takeTimer ↔ t.armed = some bundle := by
      constructor
      · intro hall
        exact hall bundle hheld.slot
      · intro harmed b hb
        rw [hheld.slot] at hb
        rw [← hb]
        exact harmed
    rw [hfits, ← hheld.armed]
    simp only [Trail.expired, hheld.slot, hheld.inside]
    constructor
    · intro hproper
      exact hproper.1.1
    · intro hpresented
      exact ⟨⟨hpresented, hheld.untaken, hheld.unretracted⟩, hlog⟩

theorem timerFits_other {t : Trail} {call : CdmCall} (h : call ≠ .takeTimer) : TimerFits t call := by
  cases call with
  | takeTimer => exact absurd rfl h
  | _ => trivial

theorem inOrder_change {t t' : Trail} {call : CdmCall} (h : Tracked t) (hlog : InOrder t)
    (hc : Change t call t') : InOrder t' ↔ TimerFits t call := by
  have hnext := h.change hc
  have horder : InOrder t' ↔ Runs.Each Proper t'.log :=
    ⟨InOrder.proper, fun hproper => ⟨hnext.events, hproper⟩⟩
  rw [horder]
  cases hc with
  | filled hcall hf =>
    exact iff_of_true ((proper_filled h hf).mpr hlog.proper) (timerFits_other hcall)
  | filledPresented hcall hf hp =>
    have hfilled := (proper_filled h hf).mpr hlog.proper
    exact iff_of_true ((proper_presented (h.filled hf) hp).mpr hfilled) (timerFits_other hcall)
  | presented hcall hp =>
    exact iff_of_true ((proper_presented h hp).mpr hlog.proper) (timerFits_other hcall)
  | retracted s hcall _ _ =>
    apply iff_of_true _ (timerFits_other hcall)
    show Runs.Each Proper t.retract.log
    unfold Trail.retract
    split
    · exact ⟨trivial, hlog.proper⟩
    · exact hlog.proper
  | reset s hcall _ _ => exact iff_of_true hlog.proper (timerFits_other hcall)
  | expired s hcall _ _ =>
    rw [hcall]
    exact proper_expired h hlog.proper
  | quiet s hcall _ _ => exact iff_of_true hlog.proper (timerFits_other hcall)

theorem answered_error (t : Trail) {c : CdmCommand} (hc : c ≠ .reset) (e : CdmError) :
    t.answered c (.error e) = t := by
  cases c with
  | reset => exact absurd rfl hc
  | _ => rfl

theorem change_dispense {t : Trail} {call : CdmCall} (hcall : call ≠ .takeTimer)
    {payload : CdmDispensePayload} {r : Except CdmError CdmDispenseResult}
    {s : CdmDeviceService} (h : dispense t.device payload = (r, s)) :
    Change t call { t.answered (.dispense payload) (r.map .dispensed) with device := s } := by
  rcases dispense_cases h with ⟨e, -, rfl, rfl⟩ | ⟨amount, mix, d, -, hd, rfl, rfl⟩
  · exact .quiet t.device hcall rfl rfl
  · obtain ⟨-, -, -, es, hes, hall⟩ := deduct_frame hd
    have hnotes := notes_thresholds hes hall
    let held : CdmDeviceService := { d with presentedCash := some ⟨amount, mix⟩ }
    have hfilled : Filled t { t.fill amount with device := held } :=
      .mk held ⟨amount, mix⟩ rfl hnotes
    cases hpresent : payload.present with
    | false =>
      have hs : holdBundle d payload amount mix = held := by
        simp only [holdBundle, hpresent]
        rfl
      simp only [Trail.answered, Except.map, hpresent, hs]
      exact .filled hcall hfilled
    | true =>
      have hs : holdBundle d payload amount mix =
          { held.emit (.notesPresented amount) with takeTimer := true } := by
        simp only [holdBundle, hpresent]
        rfl
      have hemit := notes_emit held (.notesPresented amount)
      simp only [Trail.answered, Except.map, hpresent, hs]
      exact .filledPresented hcall hfilled (.mk _ ⟨amount, mix⟩ rfl rfl hemit)

theorem change_present {t : Trail} {call : CdmCall} (hcall : call ≠ .takeTimer)
    {r : Except CdmError CdmResult} {s : CdmDeviceService} (h : present t.device = (r, s)) :
    Change t call { t.answered .present r with device := s } := by
  cases hcash : t.device.presentedCash with
  | none =>
    simp only [present, hcash] at h
    cases h
    exact .quiet t.device hcall rfl rfl
  | some cash =>
    simp only [present, hcash] at h
    cases h
    have hemit := notes_emit t.device (.notesPresented cash.amount)
    exact .presented hcall (.mk _ cash hcash hcash hemit)

theorem change_retract {t : Trail} {call : CdmCall} (hcall : call ≠ .takeTimer)
    {c : CdmCommand} (hc : c = .retract ∨ c = .reject) {r : Except CdmError CdmResult}
    {s : CdmDeviceService} (h : retract t.device = (r, s)) :
    Change t call { t.answered c r with device := s } := by
  have hanswer (res : CdmResult) : t.answered c (.ok res) = t.retract := by
    rcases hc with rfl | rfl
    · rfl
    · rfl
  have herror (e : CdmError) : t.answered c (.error e) = t := by
    rcases hc with rfl | rfl
    · rfl
    · rfl
  unfold retract at h
  split at h
  · cases h
    rw [herror]
    exact .quiet t.device hcall rfl rfl
  · simp only at h
    split at h
    · cases h
      rw [hanswer]
      exact .retracted _ hcall rfl rfl
    · cases h
      rw [hanswer]
      exact .retracted _ hcall rfl rfl

theorem change_command {t : Trail} {call : CdmCall} (hcall : call ≠ .takeTimer)
    {c : CdmCommand} {r : Except CdmError CdmResult} {s : CdmDeviceService}
    (h : executeCommand t.device c = (r, s)) :
    Change t call { t.answered c r with device := s } := by
  cases executeCommand_executed h with
  | reset => exact .reset _ hcall rfl rfl
  | injected hreset _ =>
    rw [answered_error t hreset]
    exact .quiet _ hcall rfl rfl
  | dispense _ hd hr =>
    rw [hr]
    exact change_dispense hcall hd
  | present _ hp => exact change_present hcall hp
  | retract _ hretract hr => exact change_retract hcall hretract hr
  | answered _ hanswer =>
    cases hanswer <;> exact .quiet t.device hcall rfl rfl

theorem change_expired (t : Trail) :
    Change t .takeTimer
      { t.expired t.device.presentedCash with device := takeTimerExpired t.device } := by
  have hempty : (takeTimerExpired t.device).presentedCash = none ∧
      notes (takeTimerExpired t.device) = notes t.device ++
        (t.device.presentedCash.map fun cash => CdmEvent.notesTaken cash.amount).toList := by
    unfold takeTimerExpired
    cases hcash : t.device.presentedCash with
    | none => exact ⟨rfl, (List.append_nil _).symm⟩
    | some cash => exact ⟨rfl, notes_emit t.device (.notesTaken cash.amount)⟩
  exact .expired _ rfl hempty.1 hempty.2

/-- A refill and a jam leave the slot and its events alone. -/
theorem quiet_other {s s' : CdmDeviceService} (op : CdmOp) (hop : ∀ c, op ≠ .command c)
    (htimer : op ≠ .takeTimer) (h : step s op = some s') :
    s'.presentedCash = s.presentedCash ∧ notes s' = notes s := by
  cases op with
  | command c => exact absurd rfl (hop c)
  | takeTimer => exact absurd rfl htimer
  | replenish unitId n =>
    cases h
    unfold replenishCassette
    split
    · exact ⟨rfl, rfl⟩
    · split_ifs <;> exact ⟨rfl, rfl⟩
  | jam unitId =>
    cases h
    unfold simulateJam
    split
    · exact ⟨rfl, rfl⟩
    · exact ⟨rfl, notes_emit _ (.jam unitId)⟩
  | clearJam unitId =>
    cases h
    unfold clearJam
    split <;> exact ⟨rfl, rfl⟩
  | injectError code =>
    cases h
    exact ⟨rfl, rfl⟩
  | clearError =>
    cases h
    exact ⟨rfl, rfl⟩

theorem quiet_replenishWith {s s' : CdmDeviceService} {unitId : String} {newCount : Number}
    (h : replenishWith s unitId newCount = .whole s') :
    s'.presentedCash = s.presentedCash ∧ notes s' = notes s := by
  unfold replenishWith at h
  split at h
  · cases h
    exact ⟨rfl, rfl⟩
  · split_ifs at h
    · cases h
      exact ⟨rfl, rfl⟩
    · split at h
      · next n _ =>
        cases h
        exact quiet_other (.replenish unitId n) nofun nofun rfl
      · cases h

theorem change_request (t : Trail) (commandCode : String) (payload : Option Json) :
    Change t (.request commandCode payload)
      { t.note (.request commandCode payload) with
        device := (executeRequest t.device commandCode payload).2 } := by
  have hcall : CdmCall.request commandCode payload ≠ .takeTimer := nofun
  cases hcommand : commandOf commandCode payload with
  | some c =>
    simp only [Trail.note, executeRequest, hcommand]
    exact change_command hcall (Prod.eta _).symm
  | none =>
    simp only [Trail.note, executeRequest, hcommand]
    rcases consumed_of_throw t.device .typeError with hsame | ⟨-, hcleared⟩
    · rw [hsame]
      exact .quiet _ hcall rfl rfl
    · rw [hcleared]
      exact .quiet _ hcall rfl rfl

theorem trailStep_change {t t' : Trail} {call : CdmCall} (h : trailStep t call = some t') :
    Change t call t' := by
  unfold trailStep at h
  split at h
  · next s hs =>
    cases h
    cases call with
    | request commandCode payload =>
      cases hs
      exact change_request t commandCode payload
    | takeTimer =>
      have hmap : (step t.device .takeTimer).map Dispenser.whole = some (.whole s) := hs
      obtain ⟨s', hs', heq⟩ := Option.map_eq_some_iff.mp hmap
      cases heq
      simp only [step] at hs'
      split_ifs at hs'
      cases hs'
      exact change_expired t
    | replenish unitId newCount =>
      obtain ⟨hcash, hnotes⟩ := quiet_replenishWith (Option.some.inj hs)
      exact .quiet s (fun hcall => by cases hcall) hcash hnotes
    | jam unitId =>
      cases hs
      obtain ⟨hcash, hnotes⟩ := quiet_other (.jam unitId) (fun c hc => by cases hc)
        (fun htimer => by cases htimer) rfl
      exact .quiet _ (fun hcall => by cases hcall) hcash hnotes
    | clearJam unitId =>
      cases hs
      obtain ⟨hcash, hnotes⟩ := quiet_other (.clearJam unitId) (fun c hc => by cases hc)
        (fun htimer => by cases htimer) rfl
      exact .quiet _ (fun hcall => by cases hcall) hcash hnotes
    | injectError code =>
      cases hs
      exact .quiet _ (fun hcall => by cases hcall) rfl rfl
    | clearError =>
      cases hs
      exact .quiet _ (fun hcall => by cases hcall) rfl rfl
  · cases h

theorem tracked_start : Tracked .start := ⟨rfl, nofun, nofun, .inl ⟨rfl, rfl⟩⟩

/-- In every run of a fresh dispenser, whatever is asked of it and whenever its timer expires,
the marks are in order at every point if and only if no expiry finds a bundle that its timer was
not started for. -/
theorem inOrder_iff_timerFits (calls : List CdmCall) :
    Runs.Always trailStep InOrder .start calls ↔ Runs.Along trailStep TimerFits .start calls := by
  apply Runs.always_iff_along Tracked _ _ tracked_start ⟨rfl, trivial⟩
  · intro t call t' h hstep
    exact h.change (trailStep_change hstep)
  · intro t call t' h hlog hstep
    exact inOrder_change h hlog (trailStep_change hstep)

/-- A DISPENSE of 100000 by the minimal mix. -/
def minimalRequest (present : Bool) : CdmCall :=
  .request "WFS_CMD_CDM_DISPENSE" (some (.obj [
    (utf16 "amount", .num (.ofInt 100000)),
    (utf16 "mixType", .str (utf16 "MIN_NOTES")),
    (utf16 "present", .bool present)]))

/-- The timer of the first bundle takes the second one, which was never presented. -/
theorem taken_unpresented :
    ¬ Runs.Always trailStep InOrder .start
      [minimalRequest true, minimalRequest false, .takeTimer] := by
  intro h
  have hrun : (Runs.exec trailStep .start
      [minimalRequest true, minimalRequest false, .takeTimer]).map Trail.log =
        some [.taken 1 100000, .dispensed 1 100000, .presented 0 100000, .dispensed 0 100000] := by
    decide +kernel
  obtain ⟨t, ht, hlog⟩ := Option.map_eq_some_iff.mp hrun
  have hproper := (h.last ht).proper
  rw [hlog] at hproper
  exact absurd hproper.1.1 (by decide)

end AtmXfs.Cdm
