import AtmXfs.Macro.Steps

namespace AtmXfs.Macro

open Js Host Pin TwoRuns TwoRuns.Comp

/-- The session without the message of its error, which no step reads. -/
def LiveSession.plain (session : LiveSession) : LiveSession := { session with errorMessage := none }

/-- The row without the reason of its reversal, which only the message of a failed step shows. -/
def plainRow (row : Transaction) : Transaction := { row with errorReason := none }

/-- What a step can find out of the printer: once it has printed, nothing more. -/
inductive PrinterUse where
  | printed | noPaper | failing | ready
  deriving DecidableEq

def printerUse (ptr : Ptr.PtrDeviceService) (failing : Bool) : PrinterUse :=
  if ptr.history ≠ [] then .printed
  else if ptr.paperLevel = 0 then .noPaper
  else if failing then .failing
  else .ready

def AtmStack.printer (s : AtmStack) : PrinterUse :=
  printerUse s.ptr (s.injectedError .ptr).isSome

theorem printer_inject (s : AtmStack) (device : XfsDevice) (c : Option Number) :
    (s.inject device c).printer =
      printerUse s.ptr (Function.update s.injectedError device c .ptr).isSome := rfl

/-- Printers of one use are of one use with any error injected into both. -/
theorem printerUse_congr {p q : Ptr.PtrDeviceService} {a b : Bool}
    (h : printerUse p a = printerUse q b) (c : Bool) : printerUse p c = printerUse q c := by
  unfold printerUse at h ⊢
  split_ifs at h ⊢ <;> rfl

/-- What a form makes of a printer. -/
def PrinterUse.afterForm : PrinterUse → PrinterUse
  | .printed => .printed
  | .noPaper => .noPaper
  | .failing => .ready
  | .ready => .printed

theorem history_printForm {ptr : Ptr.PtrDeviceService} (hpaper : ptr.paperLevel ≠ 0)
    (now : Ptr.Instant) (payload : Ptr.PtrPrintFormPayload) :
    (Ptr.printForm ptr now payload).2.history ≠ [] := by
  rw [Ptr.printForm, if_neg hpaper]
  intro hempty
  have hlast := Ptr.getLast?_record ptr ⟨utf16 "RCPT" ++ now.base36, now.iso,
    some (.str (Ptr.renderForm now payload))⟩
  rw [show (Ptr.record ptr _).history = [] from hempty] at hlast
  cases hlast

/-- A form changes the printer and the error that is injected into it, and nothing else. -/
theorem executeCommand_printForm (P : Platform) (now : Ptr.Instant)
    (payload : Ptr.PtrPrintFormPayload) (s : AtmStack) :
    ∃ ptr code, (AtmStack.executeCommand P .ptr (AtmStack.printForm now payload) s).2 =
        { s with ptr, injectedError := Function.update s.injectedError .ptr code } ∧
      printerUse ptr code.isSome = s.printer.afterForm := by
  unfold AtmStack.printer
  cases hcode : s.injectedError .ptr with
  | some code =>
    rw [AtmStack.executeCommand_some P hcode]
    refine ⟨s.ptr, none, rfl, ?_⟩
    simp only [printerUse, Option.isSome_none, Option.isSome_some]
    split_ifs <;> first | rfl | contradiction
  | none =>
    rw [AtmStack.executeCommand_none P hcode]
    have hkept : Function.update s.injectedError .ptr none = s.injectedError := by
      rw [← hcode, Function.update_eq_self]
    refine ⟨(Ptr.printForm s.ptr now payload).2, none, ?_, ?_⟩
    · rw [hkept]
      rfl
    · by_cases hpaper : s.ptr.paperLevel = 0
      · rw [Ptr.printForm, if_pos hpaper]
        simp only [printerUse, Option.isSome_none]
        split_ifs <;> rfl
      · simp only [printerUse, Option.isSome_none, if_neg hpaper]
        rw [if_pos (history_printForm hpaper now payload)]
        split_ifs <;> first | rfl | contradiction

theorem cashUnits_takeTimerExpired (cdm : Cdm.CdmDeviceService) :
    (Cdm.takeTimerExpired cdm).cashUnits = cdm.cashUnits := by
  unfold Cdm.takeTimerExpired
  split <;> rfl

/-- An entry without the number of its timer. -/
def entryOf (pad : Pad Unit) : List Char × Option (PinGetPinPayload × Mode) :=
  (pad.pinBuffer, pad.active.map fun entry => (entry.spec, entry.mode))

theorem entryOf_cases {p q : Pad Unit} (h : entryOf p = entryOf q) :
    p.pinBuffer = q.pinBuffer ∧ ((p.active = none ∧ q.active = none) ∨
      ∃ a b, p.active = some a ∧ q.active = some b ∧ a.spec = b.spec ∧ a.mode = b.mode) := by
  obtain ⟨hbuffer, hactive⟩ := Prod.mk.inj h
  refine ⟨hbuffer, ?_⟩
  rcases map_cases hactive with hnone | ⟨a, b, hp, hq, hab⟩
  · exact .inl hnone
  · obtain ⟨hspec, hmode⟩ := Prod.mk.inj hab
    exact .inr ⟨a, b, hp, hq, hspec, hmode⟩

theorem isSome_active_of_entryOf {p q : Pad Unit} (h : entryOf p = entryOf q) :
    p.active.isSome = q.active.isSome := by
  obtain ⟨-, ⟨hp, hq⟩ | ⟨a, b, hp, hq, -⟩⟩ := entryOf_cases h
  · rw [hp, hq]
  · rw [hp, hq]
    rfl

/-- What an operation leaves of the entry, and whether it has ended one. -/
def outcomeOf (r : Pad Unit × Pin.Settled Unit) :
    (List Char × Option (PinGetPinPayload × Mode)) × Bool :=
  (entryOf r.1, r.2.isEmpty)

theorem outcomeOf_quiet {p q : Pad Unit} (h : entryOf p = entryOf q) :
    outcomeOf (p, []) = outcomeOf (q, []) := congrArg (·, true) h

theorem outcomeOf_cancelEntry {p q : Pad Unit} (h : entryOf p = entryOf q) (reason : String) :
    outcomeOf (p.cancelEntry reason) = outcomeOf (q.cancelEntry reason) := by
  obtain ⟨-, ⟨hp, hq⟩ | ⟨a, b, hp, hq, -, -⟩⟩ := entryOf_cases h
  · simp only [Pad.cancelEntry, hp, hq]
    exact outcomeOf_quiet h
  · simp only [Pad.cancelEntry, hp, hq]
    rfl

theorem outcomeOf_terminateEntry {p q : Pad Unit} (h : entryOf p = entryOf q) :
    outcomeOf p.terminateEntry = outcomeOf q.terminateEntry := by
  obtain ⟨hbuffer, ⟨hp, hq⟩ | ⟨a, b, hp, hq, -, hmode⟩⟩ := entryOf_cases h
  · simp only [Pad.terminateEntry, hp, hq]
    exact outcomeOf_quiet h
  · simp only [Pad.terminateEntry, hp, hq, hmode]
    cases b.mode with
    | pin =>
      simp only [outcomeOf, entryOf, Pad.record, Pad.clearTimeout, hbuffer, Option.map_none,
        List.isEmpty_cons]
    | data => rfl

theorem outcomeOf_pressKey {p q : Pad Unit} (h : entryOf p = entryOf q) (key : String) :
    outcomeOf (p.pressKey key) = outcomeOf (q.pressKey key) := by
  obtain ⟨hbuffer, ⟨hp, hq⟩ | ⟨a, b, hp, hq, hspec, hmode⟩⟩ := entryOf_cases h
  · simp only [Pad.pressKey, hp, hq]
    exact outcomeOf_quiet h
  · have htyped : ∀ buffer : List Char, entryOf { p with pinBuffer := buffer, active := some a } =
        entryOf { q with pinBuffer := buffer, active := some b } := by
      intro buffer
      simp only [entryOf, Option.map_some, hspec, hmode]
    simp only [Pad.pressKey, hp, hq, hspec, hbuffer]
    split_ifs
    · exact outcomeOf_cancelEntry h _
    · exact outcomeOf_quiet (htyped [])
    · exact outcomeOf_quiet h
    · exact outcomeOf_terminateEntry h
    · split
      · next c hkey =>
        split_ifs
        · exact outcomeOf_terminateEntry (htyped _)
        · exact outcomeOf_quiet (htyped _)
        · exact outcomeOf_quiet h
      · exact outcomeOf_quiet h

theorem outcomeOf_beginEntry {p q : Pad Unit} (h : entryOf p = entryOf q) (mode : Mode)
    (spec : PinGetPinPayload) :
    outcomeOf (p.beginEntry mode spec ()) = outcomeOf (q.beginEntry mode spec ()) := by
  have hsuperseded := congrArg Prod.snd (outcomeOf_cancelEntry h "superseded")
  exact congrArg (_, ·) hsuperseded

/-- The tables without the reasons of reversals. -/
def plainDb (db : Db) : Db := { db with transactions := db.transactions.map plainRow }

theorem dailyTotal_plain (rows : List Transaction) (accountId : String) (start : Int) :
    dailyTotal (rows.map plainRow) accountId start = dailyTotal rows accountId start := by
  unfold dailyTotal completedSum
  rw [List.filter_map, List.map_map]
  rfl

theorem moveBalance_plain (db : Db) (accountId : String) (sent change : Int) :
    (plainDb db).moveBalance accountId sent change =
      (db.moveBalance accountId sent change).map plainDb := by
  unfold Db.moveBalance
  simp only [plainDb]
  split
  · rfl
  · split_ifs <;> rfl

theorem authorizeTx_plain (db : Db) (now : Int) (authCode stanNo : String)
    (sw : IsoSwitchProfile) (p : WithdrawalParams) :
    authorizeTx (plainDb db) now authCode stanNo sw p =
      (authorizeTx db now authCode stanNo sw p).map fun x => (x.1, plainDb x.2) := by
  unfold authorizeTx
  simp only [Db.debit, moveBalance_plain]
  simp only [show (plainDb db).cards = db.cards from rfl,
    show (plainDb db).accounts = db.accounts from rfl,
    show (plainDb db).transactions = db.transactions.map plainRow from rfl, dailyTotal_plain]
  cases db.cards p.pan with
  | none => rfl
  | some card =>
    simp only
    cases db.accounts card.accountId with
    | none => rfl
    | some account =>
      simp only
      split_ifs
      · rfl
      · rfl
      · rfl
      · cases p.amount.toInt? with
        | none => rfl
        | some amount =>
          simp only
          cases db.moveBalance card.accountId amount (-amount) with
          | none => rfl
          | some moved => simp [plainDb, Db.create, withdrawalRow, plainRow]

theorem plainRow_reverseRow (stanNo reason : String) (row : Transaction) :
    plainRow (reverseRow stanNo reason row) = plainRow (reverseRow stanNo "" (plainRow row)) := by
  by_cases hrow : row.stanNo = some stanNo ∧ row.status = .completed
  · have hplain : (plainRow row).stanNo = some stanNo ∧ (plainRow row).status = .completed := hrow
    rw [reverseRow, if_pos hrow, reverseRow, if_pos hplain]
    rfl
  · have hplain : ¬((plainRow row).stanNo = some stanNo ∧ (plainRow row).status = .completed) :=
      hrow
    rw [reverseRow, if_neg hrow, reverseRow, if_neg hplain]
    rfl

theorem plainDb_reversed (db : Db) (stanNo reason : String) (row : Transaction) :
    plainDb ({ db with transactions := db.transactions.map (reverseRow stanNo reason) }.create row) =
      { plainDb db with
        transactions := (plainDb db).transactions.map
          (fun row => plainRow (reverseRow stanNo "" row)) ++ [plainRow row] } := by
  have hrows : (db.transactions.map (reverseRow stanNo reason)).map plainRow =
      (db.transactions.map plainRow).map fun row => plainRow (reverseRow stanNo "" row) := by
    rw [List.map_map, List.map_map]
    exact List.map_congr_left fun row _ => plainRow_reverseRow stanNo reason row
  simp only [plainDb, Db.create, List.map_append, List.map_cons, List.map_nil, hrows]

/-- Two reversals that differ in the reason at most. -/
theorem reverseTx_plain {db db' : Db} (hdb : plainDb db = plainDb db') (now : Int)
    (p : ReversalParams) (reason : String) :
    (reverseTx db now p).map plainDb = (reverseTx db' now { p with reason }).map plainDb := by
  unfold reverseTx
  cases p.amount.toInt? with
  | none => rfl
  | some amount =>
    have hmoved : (db.credit p.accountId amount).map plainDb =
        (db'.credit p.accountId amount).map plainDb := by
      rw [Db.credit, Db.credit, ← moveBalance_plain, ← moveBalance_plain, hdb]
    rcases map_cases hmoved with ⟨hd, hd'⟩ | ⟨moved, moved', hd, hd', hplain⟩
    · simp only [hd, hd']
    · simp only [hd, hd', Option.map_some, Option.some.injEq]
      rw [plainDb_reversed, plainDb_reversed, hplain]
      rfl

theorem deduct_cashUnits {s t : Cdm.CdmDeviceService} (h : s.cashUnits = t.cashUnits)
    (mix : Cdm.Mix) :
    (Cdm.deduct s mix).1 = (Cdm.deduct t mix).1 ∧
      (Cdm.deduct s mix).2.cashUnits = (Cdm.deduct t mix).2.cashUnits := by
  induction mix generalizing s t with
  | nil => exact ⟨rfl, h⟩
  | cons entry rest ih =>
    obtain ⟨key, count⟩ := entry
    simp only [Cdm.deduct, h]
    cases Cdm.findSpendableUnitByDenom t.cashUnits key.toNumber with
    | none => exact ⟨rfl, h⟩
    | some unit =>
      apply ih
      unfold Cdm.deductEntry
      simp only
      split_ifs <;>
        simp only [Cdm.CdmDeviceService.emit, Cdm.CdmDeviceService.putUnit, h]

/-- What is dispensed, and what stays in the cassettes, depends on the cassettes alone. -/
theorem dispense_cashUnits {s t : Cdm.CdmDeviceService} (h : s.cashUnits = t.cashUnits)
    (payload : Cdm.CdmDispensePayload) :
    (Cdm.dispense s payload).1 = (Cdm.dispense t payload).1 ∧
      (Cdm.dispense s payload).2.cashUnits = (Cdm.dispense t payload).2.cashUnits := by
  have hplan : Cdm.planDispense s payload = Cdm.planDispense t payload := by
    simp only [Cdm.planDispense, Cdm.chooseMix, h]
  have hpresent : ∀ u : Cdm.CdmDeviceService, (Cdm.present u).2.cashUnits = u.cashUnits := by
    intro u
    unfold Cdm.present
    split <;> rfl
  unfold Cdm.dispense
  rw [hplan]
  cases Cdm.planDispense t payload with
  | error e => exact ⟨rfl, h⟩
  | ok plan =>
    obtain ⟨amount, mix⟩ := plan
    obtain ⟨hresult, hunits⟩ := deduct_cashUnits h (Cdm.objectEntries mix)
    rcases hs : Cdm.deduct s (Cdm.objectEntries mix) with ⟨r, s'⟩
    rcases ht : Cdm.deduct t (Cdm.objectEntries mix) with ⟨q, t'⟩
    rw [hs, ht] at hresult hunits
    simp only at hresult hunits
    subst hresult
    simp only [hs, ht]
    cases r with
    | error e => exact ⟨rfl, hunits⟩
    | ok u =>
      refine ⟨rfl, ?_⟩
      simp only
      split_ifs
      · rw [hpresent, hpresent]
        exact hunits
      · exact hunits

/-- Two states that no macro tells apart: the same tables, counter, cassettes and session, and of
the devices only what a step can read. -/
structure Alike (s t : AtmStack) : Prop where
  cards : s.bank.cards = t.bank.cards
  names : s.bank.cardholderName = t.bank.cardholderName
  accounts : s.bank.accounts = t.bank.accounts
  transactions : s.bank.transactions.map plainRow = t.bank.transactions.map plainRow
  stan : s.stanCounter = t.stanCounter
  session : s.session.map LiveSession.plain = t.session.map LiveSession.plain
  handlers : s.handlers = t.handlers
  card : s.card.isSome = t.card.isSome
  entry : entryOf s.pin = entryOf t.pin
  pinCalls : s.pinCalls = t.pinCalls
  entryCall : s.entryCall = t.entryCall
  cassettes : s.cdm.cashUnits = t.cdm.cashUnits
  printer : s.printer = t.printer
  errors : ∀ device, device ≠ .ptr →
    (s.injectedError device).isSome = (t.injectedError device).isSome
  ctx : s.ctx = t.ctx
  clock : s.clock = t.clock
  down : s.down = t.down

namespace Alike

variable {s t : AtmStack}

/-- A change of the session that does not look at the message of its error. -/
theorem modify (h : Alike s t) {f g : LiveSession → LiveSession}
    (hfg : ∀ a b, a.plain = b.plain → (f a).plain = (g b).plain) :
    Alike (s.modify f) (t.modify g) := by
  have hsession := h.session
  refine { h with session := ?_ }
  show (s.session.map f).map LiveSession.plain = (t.session.map g).map LiveSession.plain
  rcases map_cases hsession with ⟨hs, ht⟩ | ⟨a, b, hs, ht, hab⟩
  · rw [hs, ht]
    rfl
  · rw [hs, ht]
    exact congrArg some (hfg a b hab)

theorem isSome_session (h : Alike s t) : s.session.isSome = t.session.isSome := by
  have hsome := congrArg Option.isSome h.session
  rwa [Option.isSome_map, Option.isSome_map] at hsome

/-- What is read of the session without the message of its error. -/
theorem map_session (h : Alike s t) {β : Type} {f : LiveSession → β}
    (hf : ∀ a, f a.plain = f a) : s.session.map f = t.session.map f := by
  have hplain : ∀ o : Option LiveSession, o.map f = (o.map LiveSession.plain).map f := by
    intro o
    rw [Option.map_map]
    apply Option.map_congr
    intro a _
    exact (hf a).symm
  rw [hplain s.session, hplain t.session, h.session]

/-- The same change of both sessions. -/
theorem update (h : Alike s t) {f : LiveSession → LiveSession}
    (hf : ∀ a, (f a).plain = (f a.plain).plain) : Alike (s.modify f) (t.modify f) := by
  apply h.modify
  intro a b hab
  rw [hf a, hf b, hab]

theorem transitionTo (h : Alike s t) (next : AtmState) :
    Alike (s.transitionTo next) (t.transitionTo next) := h.update fun _ => rfl

theorem notifyState (h : Alike s t) : Alike s.notifyState t.notifyState := h.update fun _ => rfl

theorem fail (h : Alike s t) (msg msg' : String) : Alike (s.fail msg) (t.fail msg') := by
  have hmessage : Alike (s.modify fun session => { session with errorMessage := some msg })
      (t.modify fun session => { session with errorMessage := some msg' }) := h.modify fun _ _ => id
  exact hmessage.transitionTo .error

theorem beginEnd (h : Alike s t) (reason : EndReason) :
    Alike (s.beginEnd reason) (t.beginEnd reason) := h.update fun _ => rfl

theorem finishEnd (h : Alike s t) : Alike s.finishEnd t.finishEnd := { h with session := rfl }

theorem handleIdleTimeout (h : Alike s t) : Alike s.handleIdleTimeout t.handleIdleTimeout := by
  refine { h.fail "session timed out" "session timed out" with handlers := ?_ }
  show s.handlers ++ [if s.card.isSome then .ejecting else .logging] = t.handlers ++ _
  rw [h.handlers, h.card]

theorem inject (h : Alike s t) (device : XfsDevice) {c c' : Option Number}
    (hc : c.isSome = c'.isSome) : Alike (s.inject device c) (t.inject device c') := by
  have herrors : ∀ d, (s.injectedError d).isSome = (t.injectedError d).isSome →
      (Function.update s.injectedError device c d).isSome =
        (Function.update t.injectedError device c' d).isSome := by
    intro d hd
    by_cases hdevice : d = device
    · rw [hdevice, Function.update_self, Function.update_self, hc]
    · rw [Function.update_of_ne hdevice, Function.update_of_ne hdevice, hd]
  refine { h with printer := ?_, errors := fun d hd => herrors d (h.errors d hd) }
  rw [printer_inject, printer_inject]
  by_cases hdevice : device = .ptr
  · rw [hdevice, Function.update_self, Function.update_self, hc]
    exact printerUse_congr h.printer c'.isSome
  · rw [Function.update_of_ne (Ne.symm hdevice), Function.update_of_ne (Ne.symm hdevice)]
    exact h.printer

/-- A command on a device whose injected errors count. -/
theorem executeCommand {α β : Type} (P : Platform) {Q : α → β → Prop} (h : Alike s t)
    {device : XfsDevice} (hdevice : device ≠ .ptr) {c : AtmStack → Except String α × AtmStack}
    {d : AtmStack → Except String β × AtmStack}
    (hc : Ends Q (c s).1 (d t).1 ∧ Alike (c s).2 (d t).2) :
    Ends Q (AtmStack.executeCommand P device c s).1 (AtmStack.executeCommand P device d t).1 ∧
      Alike (AtmStack.executeCommand P device c s).2
        (AtmStack.executeCommand P device d t).2 := by
  have herror := h.errors device hdevice
  cases hs : s.injectedError device with
  | none => cases ht : t.injectedError device with
    | none =>
      rw [AtmStack.executeCommand_none P hs, AtmStack.executeCommand_none P ht]
      exact hc
    | some code => simp [hs, ht] at herror
  | some code => cases ht : t.injectedError device with
    | none => simp [hs, ht] at herror
    | some code' =>
      rw [AtmStack.executeCommand_some P hs, AtmStack.executeCommand_some P ht]
      exact ⟨trivial, h.inject device rfl⟩

theorem readTrack (h : Alike s t) :
    Ends Eq (AtmStack.readTrack s).1 (AtmStack.readTrack t).1 ∧
      Alike (AtmStack.readTrack s).2 (AtmStack.readTrack t).2 := by
  unfold AtmStack.readTrack
  rw [h.card]
  split_ifs
  · exact ⟨rfl, h⟩
  · exact ⟨trivial, h⟩

theorem releaseCard (h : Alike s t) (message : String) :
    Ends Eq (AtmStack.releaseCard message s).1 (AtmStack.releaseCard message t).1 ∧
      Alike (AtmStack.releaseCard message s).2 (AtmStack.releaseCard message t).2 := by
  unfold AtmStack.releaseCard
  rw [h.card]
  split_ifs
  · exact ⟨rfl, { h with card := rfl }⟩
  · exact ⟨trivial, h⟩

theorem insertCard (h : Alike s t) (pan : String) :
    (AtmStack.insertCard pan s).1 = (AtmStack.insertCard pan t).1 ∧
      Alike (AtmStack.insertCard pan s).2 (AtmStack.insertCard pan t).2 := by
  unfold AtmStack.insertCard
  rw [h.card]
  split_ifs
  · exact ⟨rfl, h⟩
  · exact ⟨rfl, { h with card := rfl }⟩

/-- An operation of the pad that leaves the same entry and ends one in both or in neither. -/
theorem withPad (h : Alike s t) {r q : Pad Unit × Pin.Settled Unit}
    (hr : outcomeOf r = outcomeOf q) : Alike (s.withPad r) (t.withPad q) := by
  obtain ⟨hentry, hended⟩ := Prod.mk.inj hr
  unfold AtmStack.withPad
  rw [hended]
  split_ifs
  · exact { h with entry := hentry }
  · exact { h with
      entry := hentry
      pinCalls := congrArg (List.map PinPhase.wake) h.pinCalls
      entryCall := congrArg (Option.map PinPhase.wake) h.entryCall }

theorem pressKey (h : Alike s t) (key : String) : Alike (s.pressKey key) (t.pressKey key) :=
  h.withPad (outcomeOf_pressKey h.entry key)

theorem pressKeys (h : Alike s t) (keys : List String) :
    Alike (keys.foldl AtmStack.pressKey s) (keys.foldl AtmStack.pressKey t) := by
  induction keys generalizing s t with
  | nil => exact h
  | cons key keys ih => exact ih (h.pressKey key)

theorem arm (h : Alike s t) :
    Ends Eq s.arm.1 t.arm.1 ∧ Alike s.arm.2 t.arm.2 :=
  ⟨rfl, h.withPad (outcomeOf_beginEntry h.entry .pin Atm.pinEntrySpec)⟩

theorem entryTimeout (h : Alike s t) : Alike s.entryTimeout t.entryTimeout :=
  h.withPad (outcomeOf_cancelEntry h.entry _)

theorem verifyPinBuffer (h : Alike s t) :
    s.verifyPinBuffer.1 = t.verifyPinBuffer.1 ∧ Alike s.verifyPinBuffer.2 t.verifyPinBuffer.2 := by
  obtain ⟨hbuffer, hactive⟩ := Prod.mk.inj h.entry
  have hpan : s.session.map (·.cardPan) = t.session.map (·.cardPan) := h.map_session fun _ => rfl
  unfold AtmStack.verifyPinBuffer
  rw [hpan, hbuffer]
  cases t.session.map (·.cardPan) with
  | none => exact ⟨rfl, h⟩
  | some pan => exact ⟨rfl, { h with entry := congrArg ([], ·) hactive }⟩

theorem verifyPin (h : Alike s t) (P : Platform) (pan : String) (entered : List Char) :
    (AtmStack.verifyPin P pan entered s).1 = (AtmStack.verifyPin P pan entered t).1 ∧
      Alike (AtmStack.verifyPin P pan entered s).2 (AtmStack.verifyPin P pan entered t).2 := by
  unfold AtmStack.verifyPin
  rw [h.cards]
  cases t.bank.cards pan with
  | none => exact ⟨rfl, h⟩
  | some row =>
    simp only
    cases settlePin row (Host.verifyPin P.sha256 entered row.pin) with
    | none => exact ⟨rfl, h⟩
    | some settled => exact ⟨rfl, { h with cards := rfl }⟩

theorem retainCard (h : Alike s t) (pan : String) :
    (AtmStack.retainCard pan s).1 = (AtmStack.retainCard pan t).1 ∧
      Alike (AtmStack.retainCard pan s).2 (AtmStack.retainCard pan t).2 := by
  unfold AtmStack.retainCard
  rw [h.cards]
  cases t.bank.cards pan with
  | none => exact ⟨rfl, h⟩
  | some row => exact ⟨rfl, { h with cards := rfl }⟩

theorem pinAnswered (h : Alike s t) (result : AuthResult) :
    (AtmStack.pinAnswered result s).1 = (AtmStack.pinAnswered result t).1 ∧
      Alike (AtmStack.pinAnswered result s).2 (AtmStack.pinAnswered result t).2 := by
  have hattempts : s.session.map (·.failedPinAttempts) = t.session.map (·.failedPinAttempts) :=
    h.map_session fun _ => rfl
  unfold AtmStack.pinAnswered
  rw [hattempts]
  split_ifs
  · exact ⟨rfl, (h.transitionTo .pinVerified).transitionTo .mainMenu⟩
  · cases t.session.map (·.failedPinAttempts) with
    | none => exact ⟨rfl, h⟩
    | some attempts => exact ⟨rfl, h.update fun _ => rfl⟩

/-- A call of `beginPinEntry` goes on alike. -/
theorem advance (h : Alike s t) (P : Platform) (phase : PinPhase) :
    (s.advance P phase).1 = (t.advance P phase).1 ∧
      Alike (s.advance P phase).2 (t.advance P phase).2 := by
  cases phase with
  | arming =>
    have hpin : XfsDevice.pin ≠ .ptr := by decide
    obtain ⟨hends, harmed⟩ := h.executeCommand P hpin h.arm
    simp only [AtmStack.advance]
    cases hs : AtmStack.executeCommand P .pin AtmStack.arm s with
    | mk r s' => cases ht : AtmStack.executeCommand P .pin AtmStack.arm t with
      | mk q t' =>
        rw [hs, ht] at hends harmed
        cases r with
        | error e => cases q with
          | error e' => exact ⟨rfl, harmed⟩
          | ok u => exact hends.elim
        | ok u => cases q with
          | error e' => exact hends.elim
          | ok u' => exact ⟨rfl, harmed⟩
  | entering => exact ⟨rfl, h.entryTimeout⟩
  | logging => exact h.verifyPinBuffer
  | verifying pan entered =>
    obtain ⟨hanswer, hverified⟩ := h.verifyPin P pan entered
    simp only [AtmStack.advance]
    rcases hs : AtmStack.verifyPin P pan entered s with ⟨r, s'⟩
    rcases ht : AtmStack.verifyPin P pan entered t with ⟨q, t'⟩
    rw [hs, ht] at hanswer hverified
    simp only at hanswer hverified
    subst hanswer
    cases r with
    | none => exact ⟨rfl, hverified⟩
    | some result => exact hverified.pinAnswered result
  | binning reason =>
    have hidc : XfsDevice.idc ≠ .ptr := by decide
    exact ⟨rfl, (h.executeCommand P hidc (h.releaseCard "No card to retain")).2⟩
  | binLogging reason =>
    have hpan : s.session.map (·.cardPan) = t.session.map (·.cardPan) :=
      h.map_session fun _ => rfl
    simp only [AtmStack.advance, hpan]
    cases t.session.map (·.cardPan) with
    | none => exact ⟨rfl, h⟩
    | some pan => exact ⟨rfl, h⟩
  | retaining reason pan =>
    obtain ⟨hfound, hretained⟩ := h.retainCard pan
    simp only [AtmStack.advance]
    rcases hs : AtmStack.retainCard pan s with ⟨r, s'⟩
    rcases ht : AtmStack.retainCard pan t with ⟨q, t'⟩
    rw [hs, ht] at hfound hretained
    simp only at hfound hretained
    subst hfound
    cases r with
    | false => exact ⟨rfl, hretained⟩
    | true =>
      simp only [hretained.isSome_session]
      split_ifs
      · exact ⟨rfl, (hretained.fail reason reason).beginEnd .error⟩
      · exact ⟨rfl, hretained⟩
  | ending => exact ⟨rfl, h.finishEnd⟩
  | returned verdict => exact ⟨rfl, h⟩
  | thrown message => exact ⟨rfl, h⟩

theorem putPinCall (h : Alike s t) (i : Nat) (phase : PinPhase) :
    Alike (s.putPinCall i phase) (t.putPinCall i phase) := by
  have hset := congrArg (fun calls : List PinPhase => calls.set i phase) h.pinCalls
  have herased := congrArg (fun calls : List PinPhase => calls.eraseIdx i) h.pinCalls
  cases phase with
  | returned verdict => exact { h with pinCalls := herased }
  | thrown message => exact { h with pinCalls := herased, down := rfl }
  | _ => exact { h with pinCalls := hset }

theorem proceedEntry (h : Alike s t) (P : Platform) :
    Alike (s.proceedEntry P) (t.proceedEntry P) := by
  unfold AtmStack.proceedEntry
  rw [h.entryCall]
  cases t.entryCall with
  | none => exact h
  | some phase =>
    obtain ⟨hphase, hadvanced⟩ := h.advance P phase
    exact { hadvanced with entryCall := congrArg some hphase }

theorem abandonEntry (h : Alike s t) : Alike s.abandonEntry t.abandonEntry := by
  have hleft : ∀ phase, s.pinCalls ++ [phase] = t.pinCalls ++ [phase] :=
    fun phase => congrArg (· ++ [phase]) h.pinCalls
  unfold AtmStack.abandonEntry
  rw [h.entryCall]
  split
  · exact { h with entryCall := rfl }
  · exact { h with entryCall := rfl }
  · exact { h with entryCall := rfl }
  · exact { h with pinCalls := hleft _, entryCall := rfl }

theorem happen (h : Alike s t) (P : Platform) (e : Happening) :
    Alike (s.happen P e) (t.happen P e) := by
  cases e with
  | idleTimeout =>
    have htimer : s.session.any (·.idleTimer) = t.session.any (·.idleTimer) := by
      have hmap : s.session.map (·.idleTimer) = t.session.map (·.idleTimer) :=
        h.map_session fun _ => rfl
      simpa [Option.any_map] using congrArg (Option.any id) hmap
    simp only [AtmStack.happen, htimer]
    split_ifs
    · exact h.handleIdleTimeout
    · exact h
  | proceed i =>
    simp only [AtmStack.happen, h.handlers, h.isSome_session]
    split
    · have hdevice : XfsDevice.idc ≠ .ptr := by decide
      have heject := (h.executeCommand P hdevice (h.releaseCard "No card to eject")).2
      exact { heject with handlers := rfl }
    · split_ifs
      · exact { h.beginEnd .timeout with handlers := rfl }
      · exact { h with handlers := rfl }
    · exact { h.finishEnd with handlers := rfl }
    · exact h
  | pinCall i =>
    simp only [AtmStack.happen, h.pinCalls]
    split
    · next phase _ =>
      obtain ⟨hphase, hadvanced⟩ := h.advance P phase
      rw [hphase]
      exact hadvanced.putPinCall i _
    · exact h
  | entryCall => exact h.proceedEntry P
  | takeTimer =>
    have hunits : ∀ cdm : Cdm.CdmDeviceService,
        (if cdm.takeTimer then Cdm.takeTimerExpired cdm else cdm).cashUnits = cdm.cashUnits := by
      intro cdm
      split_ifs
      · exact cashUnits_takeTimerExpired cdm
      · rfl
    refine { h with cassettes := ?_ }
    show (if s.cdm.takeTimer then Cdm.takeTimerExpired s.cdm else s.cdm).cashUnits =
      (if t.cdm.takeTimer then Cdm.takeTimerExpired t.cdm else t.cdm).cashUnits
    rw [hunits, hunits, h.cassettes]

theorem db (h : Alike s t) : plainDb s.bank.db = plainDb t.bank.db := by
  simp only [plainDb, Bank.db, h.cards, h.accounts, h.transactions]

theorem withHost (h : Alike s t) {a b : HostEmulatorService} (hdb : plainDb a.db = plainDb b.db)
    (hstan : a.stanCounter = b.stanCounter) : Alike (s.withHost a) (t.withHost b) := by
  obtain ⟨haccounts, -, htransactions⟩ := Db.mk.inj hdb
  exact { h with accounts := haccounts, transactions := htransactions, stan := hstan }

theorem authenticate (h : Alike s t) (now : Int) (pan : String) :
    Host.authenticate s.bank.db now pan = Host.authenticate t.bank.db now pan := by
  have hplain : Host.authenticate (plainDb s.bank.db) now pan =
      Host.authenticate (plainDb t.bank.db) now pan := by rw [h.db]
  exact hplain

theorem getBalance (h : Alike s t) (pan : String) : s.getBalance pan = t.getBalance pan := by
  simp only [AtmStack.getBalance, h.cards, h.accounts]

theorem authorizeWithdrawal (h : Alike s t) (now : Int) (authCode : String)
    (p : WithdrawalParams) :
    (AtmStack.authorizeWithdrawal now authCode p s).1 =
        (AtmStack.authorizeWithdrawal now authCode p t).1 ∧
      Alike (AtmStack.authorizeWithdrawal now authCode p s).2
        (AtmStack.authorizeWithdrawal now authCode p t).2 := by
  have htx : ∀ stanNo sw, (authorizeTx s.bank.db now authCode stanNo sw p).map
      (fun x => (x.1, plainDb x.2)) =
        (authorizeTx t.bank.db now authCode stanNo sw p).map fun x => (x.1, plainDb x.2) := by
    intro stanNo sw
    rw [← authorizeTx_plain, ← authorizeTx_plain, h.db]
  unfold AtmStack.authorizeWithdrawal Host.authorizeWithdrawal AtmStack.host
  simp only [h.stan]
  rcases map_cases (htx (formatStan t.stanCounter)
    (p.switchProfile.getD (getSwitchByPan p.pan))) with ⟨hs, ht⟩ | ⟨x, y, hs, ht, hxy⟩
  · rw [hs, ht]
    exact ⟨rfl, h.withHost h.db rfl⟩
  · obtain ⟨hresult, hdb⟩ := Prod.mk.inj hxy
    rw [hs, ht]
    exact ⟨hresult, h.withHost hdb rfl⟩

theorem reverseTransaction (h : Alike s t) (now : Int) (p : ReversalParams) (reason : String) :
    (AtmStack.reverseTransaction now p s).1 =
        (AtmStack.reverseTransaction now { p with reason } t).1 ∧
      Alike (AtmStack.reverseTransaction now p s).2
        (AtmStack.reverseTransaction now { p with reason } t).2 := by
  unfold AtmStack.reverseTransaction Host.reverseTransaction AtmStack.host
  simp only
  rcases map_cases (reverseTx_plain h.db now p reason) with ⟨hs, ht⟩ | ⟨x, y, hs, ht, hxy⟩
  · rw [hs, ht]
    exact ⟨rfl, h.withHost h.db h.stan⟩
  · rw [hs, ht]
    exact ⟨rfl, h.withHost hxy h.stan⟩

theorem dispense (h : Alike s t) (P : Platform) (amount : Option Int) :
    Ends Eq (AtmStack.dispense P amount s).1 (AtmStack.dispense P amount t).1 ∧
      Alike (AtmStack.dispense P amount s).2 (AtmStack.dispense P amount t).2 := by
  obtain ⟨hresult, hunits⟩ := dispense_cashUnits h.cassettes
    ⟨(amount.map Number.ofInt).getD .nan, .minNotes, none, true⟩
  refine ⟨?_, { h with cassettes := hunits }⟩
  unfold AtmStack.dispense
  simp only [hresult]
  cases (Cdm.dispense t.cdm _).1 with
  | error e => trivial
  | ok r => rfl

/-- Whatever the printers do with a form, they are of one use afterwards. -/
theorem printForm (h : Alike s t) (P : Platform) (now : Ptr.Instant)
    (payload : Ptr.PtrPrintFormPayload) :
    Alike (AtmStack.executeCommand P .ptr (AtmStack.printForm now payload) s).2
      (AtmStack.executeCommand P .ptr (AtmStack.printForm now payload) t).2 := by
  obtain ⟨p, c, hs, hp⟩ := executeCommand_printForm P now payload s
  obtain ⟨q, d, ht, hq⟩ := executeCommand_printForm P now payload t
  have hothers : ∀ (u : AtmStack) (e : Option Number) (device : XfsDevice), device ≠ .ptr →
      Function.update u.injectedError .ptr e device = u.injectedError device :=
    fun u e device hdevice => Function.update_of_ne hdevice ..
  rw [hs, ht]
  refine { h with printer := ?_, errors := fun device hdevice => ?_ }
  · show printerUse p (Function.update s.injectedError .ptr c .ptr).isSome =
      printerUse q (Function.update t.injectedError .ptr d .ptr).isSome
    rw [Function.update_self, Function.update_self, hp, hq, h.printer]
  · show (Function.update s.injectedError .ptr c device).isSome =
      (Function.update t.injectedError .ptr d device).isSome
    rw [hothers s c device hdevice, hothers t d device hdevice]
    exact h.errors device hdevice

end Alike

end AtmXfs.Macro
