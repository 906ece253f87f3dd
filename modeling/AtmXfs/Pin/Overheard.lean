import AtmXfs.Lib.Observers
import AtmXfs.Pin.Promises

namespace AtmXfs.Pin

open Js

/-- What the pad emits on the event bus, for every client to hear. -/
inductive PinEvent where
  | key (keyPressed : String)
  | enterData (mode : Mode) (minLen maxLen : Number)
  | dataReady (length : Nat)
  deriving DecidableEq

namespace Pad

variable {κ : Type}

def terminateEvents (pad : Pad κ) : List PinEvent :=
  match pad.active with
  | none => []
  | some _ => [.dataReady pad.pinBuffer.length]

/-- The events of `pressKey`: the key first, then those of an entry that it ends. -/
def pressKeyEvents (pad : Pad κ) (key : String) : List PinEvent :=
  match pad.active with
  | none => []
  | some entry =>
    .key key ::
      if key = "CANCEL" then []
      else if key = "CLEAR" then []
      else if key = "ENTER" ∨ key ∈ entry.spec.terminateKeys then
        if (Number.ofInt pad.pinBuffer.length).lt entry.spec.minLen then []
        else pad.terminateEvents
      else
        match key.toList with
        | [c] =>
          if isDigit 10 c ∧ (Number.ofInt pad.pinBuffer.length).lt entry.spec.maxLen then
            let typed := { pad with pinBuffer := pad.pinBuffer ++ [c] }
            if entry.spec.autoEnd ∧ Number.ofInt typed.pinBuffer.length = entry.spec.maxLen then
              typed.terminateEvents
            else []
          else []
        | _ => []

end Pad

/-- An entry that begins is announced; no other command emits anything. -/
def commandEvents : PinCommand → Option String → List PinEvent
  | .getPin spec, none => [.enterData .pin spec.minLen spec.maxLen]
  | .getData spec, none => [.enterData .data spec.minLen spec.maxLen]
  | _, _ => []

def callEvents (r : PinRun) : PinCall → List PinEvent
  | .pressKey key => r.pad.pressKeyEvents key
  | .command c injected => commandEvents c injected
  | .timeout _ => []
  | .extract => []

/-- What a listener makes of the events alone: the digits of the entry that it hears being typed,
and those of the entries that it has heard end, oldest first. -/
structure Overheard where
  maxLen : Number
  digits : List Char
  entered : List (List Char)
  deriving DecidableEq

namespace Overheard

def nothing : Overheard := ⟨.nan, [], []⟩

def type (o : Overheard) (c : Char) : Overheard :=
  if isDigit 10 c ∧ (Number.ofInt o.digits.length).lt o.maxLen then
    { o with digits := o.digits ++ [c] }
  else o

def hear (o : Overheard) : PinEvent → Overheard
  | .enterData _ _ maxLen => { o with maxLen, digits := [] }
  | .dataReady _ => { o with entered := o.entered ++ [o.digits] }
  | .key key =>
    if key = "CLEAR" then { o with digits := [] }
    else match key.toList with
      | [c] => o.type c
      | _ => o

end Overheard

/-- No digit ends the entry. -/
def PinGetPinPayload.plainEnd (spec : PinGetPinPayload) : Bool :=
  spec.terminateKeys.all fun key =>
    match key.toList with
    | [c] => !isDigit 10 c
    | _ => true

/-- Digits are taken from the pad only where none are being typed, and no digit ends an entry. -/
def guarded (r : PinRun) : PinCall → Bool
  | .command (.getPin spec) none => spec.plainEnd
  | .command (.getData spec) none => spec.plainEnd
  | .command (.getPinBlock keyName _) none =>
    r.pad.still || (keyStore.lookup keyName).isNone || r.pad.pinBuffer.length < 4 ||
      12 < r.pad.pinBuffer.length
  | .extract => r.pad.still
  | _ => true

/-- The digits of an entry that has ended. -/
def PadAct.entered? : PadAct → Option (List Char)
  | .terminated _ _ digits => some digits
  | _ => none

/-- Digits that the pad has handed over, in clear or in a PIN block. -/
def Pad.released {κ : Type} (pad : Pad κ) (digits : List Char) : Prop :=
  .extracted digits ∈ pad.log ∨ .encrypted digits ∈ pad.log

/-- The listener holds the digits being typed and those of all entries that have ended, which all
digits that the pad holds or has handed over are among. -/
structure Overhears {κ : Type} (pad : Pad κ) (o : Overheard) : Prop where
  typing : ∀ e, pad.active = some e →
    e.spec.plainEnd = true ∧ o.maxLen = e.spec.maxLen ∧ o.digits = pad.pinBuffer
  held : pad.active = none → pad.pinBuffer ≠ [] → pad.pinBuffer ∈ o.entered
  entered : o.entered = pad.log.reverse.filterMap PadAct.entered?
  released : ∀ digits, digits ≠ [] → pad.released digits → digits ∈ o.entered

/-- What a key does to an active entry, with what is emitted after the key. -/
inductive Pressed {κ : Type} (pad : Pad κ) (entry : EntrySpec κ) (key : String)
    (after : Pad κ × Settled κ) (events : List PinEvent) : Prop where
  | cancelled (hkey : key = "CANCEL") (hafter : after = pad.cancelEntry "user cancelled")
    (hevents : events = [])
  | cleared (hkey : key = "CLEAR") (hafter : after = ({ pad with pinBuffer := [] }, []))
    (hevents : events = [])
  | kept (hclear : key ≠ "CLEAR") (hkey : ∀ c, key.toList = [c] → isDigit 10 c = true →
      (Number.ofInt pad.pinBuffer.length).lt entry.spec.maxLen = true →
        key ∈ entry.spec.terminateKeys) (hafter : after = (pad, [])) (hevents : events = [])
  | ended (hclear : key ≠ "CLEAR") (hends : key = "ENTER" ∨ key ∈ entry.spec.terminateKeys)
    (hafter : after = pad.terminateEntry) (hevents : events = [.dataReady pad.pinBuffer.length])
  | typed (c : Char) (hkey : key.toList = [c]) (hdigit : isDigit 10 c = true)
    (hroom : (Number.ofInt pad.pinBuffer.length).lt entry.spec.maxLen = true)
    (hafter : after = ({ pad with pinBuffer := pad.pinBuffer ++ [c] }, [])) (hevents : events = [])
  | filled (c : Char) (hkey : key.toList = [c]) (hdigit : isDigit 10 c = true)
    (hroom : (Number.ofInt pad.pinBuffer.length).lt entry.spec.maxLen = true)
    (hafter : after = { pad with pinBuffer := pad.pinBuffer ++ [c] }.terminateEntry)
    (hevents : events = [.dataReady (pad.pinBuffer ++ [c]).length])

theorem pressed_of_active {κ : Type} {pad : Pad κ} {entry : EntrySpec κ}
    (hactive : pad.active = some entry) (key : String) :
    ∃ events, pad.pressKeyEvents key = .key key :: events ∧
      Pressed pad entry key (pad.pressKey key) events := by
  obtain ⟨pinBuffer, active, timers, nextTimer, log⟩ := pad
  obtain rfl : active = some entry := hactive
  simp only [Pad.pressKeyEvents, Pad.pressKey, Pad.terminateEvents]
  refine ⟨_, rfl, ?_⟩
  by_cases hcancel : key = "CANCEL"
  · rw [if_pos hcancel, if_pos hcancel]
    exact .cancelled hcancel rfl rfl
  rw [if_neg hcancel, if_neg hcancel]
  by_cases hclear : key = "CLEAR"
  · rw [if_pos hclear, if_pos hclear]
    exact .cleared hclear rfl rfl
  rw [if_neg hclear, if_neg hclear]
  by_cases hends : key = "ENTER" ∨ key ∈ entry.spec.terminateKeys
  · rw [if_pos hends, if_pos hends]
    split_ifs with hshort
    · refine .kept hclear (fun c hkey hdigit _ => ?_) rfl rfl
      rcases hends with henter | hmem
      · rw [henter] at hkey
        cases hkey
      · exact hmem
    · exact .ended hclear hends rfl rfl
  rw [if_neg hends, if_neg hends]
  cases hkey : key.toList with
  | nil => exact .kept hclear (fun c hc _ _ => by cases hkey.symm.trans hc) rfl rfl
  | cons c rest => cases rest with
    | cons d rest => exact .kept hclear (fun c hc _ _ => by cases hkey.symm.trans hc) rfl rfl
    | nil =>
      by_cases hroom : isDigit 10 c = true ∧
          (Number.ofInt pinBuffer.length).lt entry.spec.maxLen = true
      · simp only [if_pos hroom]
        split_ifs with hfull
        · exact .filled c hkey hroom.1 hroom.2 rfl rfl
        · exact .typed c hkey hroom.1 hroom.2 rfl rfl
      · simp only [if_neg hroom]
        refine .kept hclear (fun d hd hdigit hlt => ?_) rfl rfl
        cases hkey.symm.trans hd
        exact absurd ⟨hdigit, hlt⟩ hroom

theorem not_ends_of_plainEnd {spec : PinGetPinPayload} (h : spec.plainEnd = true) {key : String}
    {c : Char} (hkey : key.toList = [c]) (hdigit : isDigit 10 c = true) :
    key ∉ spec.terminateKeys := by
  intro hmem
  have hall := List.all_eq_true.mp h key hmem
  simp [hkey, hdigit] at hall

section Overhears

variable {κ : Type} {pad : Pad κ} {o : Overheard}

theorem overhears_init : Overhears (Pad.init : Pad κ) .nothing where
  typing := nofun
  held _ hbuffer := absurd rfl hbuffer
  entered := rfl
  released digits _ hreleased := by
    rcases hreleased with h | h <;> cases h

/-- The pad drops its digits, and what it writes in its log is no entry and hands nothing over. -/
theorem Overhears.dropped (h : Overhears pad o) {pad' : Pad κ} (hactive : pad'.active = none)
    (hbuffer : pad'.pinBuffer = []) (hlog : pad'.log = pad.log ∨
      ∃ reason, pad'.log = .cancelled reason :: pad.log) : Overhears pad' o where
  typing e he := by
    rw [hactive] at he
    cases he
  held _ hne := absurd hbuffer hne
  entered := by
    rcases hlog with hlog | ⟨reason, hlog⟩ <;> rw [h.entered, hlog]
    simp [PadAct.entered?]
  released digits hne hreleased := by
    refine h.released digits hne ?_
    rcases hlog with hlog | ⟨reason, hlog⟩ <;>
      simpa only [Pad.released, hlog, List.mem_cons, reduceCtorEq, false_or] using hreleased

theorem Overhears.cancelEntry (h : Overhears pad o) (reason : String) :
    Overhears (pad.cancelEntry reason).1 o := by
  cases hactive : pad.active with
  | none => simpa only [Pad.cancelEntry, hactive] using h
  | some e =>
    rw [Pad.cancelEntry, hactive]
    exact h.dropped rfl rfl (.inr ⟨reason, rfl⟩)

/-- An entry ends: the listener adds the digits that it holds. -/
theorem Overhears.ended (h : Overhears pad o) {e : EntrySpec κ} (hactive : pad.active = some e)
    (n : Nat) : Overhears pad.terminateEntry.1 (o.hear (.dataReady n)) := by
  obtain ⟨-, -, hdigits⟩ := h.typing e hactive
  have hended : (pad.terminateEntry.1).log =
      .terminated e.spec e.mode pad.pinBuffer :: pad.log := by
    simp only [Pad.terminateEntry, hactive]
    cases e.mode <;> rfl
  refine ⟨fun e' he' => ?_, fun _ hne => ?_, ?_, fun digits hne hreleased => ?_⟩
  · rw [terminateEntry_active] at he'
    cases he'
  · obtain ⟨-, -, hsame | hempty⟩ := terminateEntry_eq hactive
    · simp [Overheard.hear, hsame, hdigits]
    · exact absurd hempty hne
  · simp [Overheard.hear, hended, h.entered, hdigits, PadAct.entered?]
  · rw [Pad.released, hended] at hreleased
    simp only [List.mem_cons, reduceCtorEq, false_or] at hreleased
    exact List.mem_append_left _ (h.released digits hne hreleased)

theorem Overhears.type (h : Overhears pad o) {e : EntrySpec κ} (hactive : pad.active = some e)
    {c : Char} (hdigit : isDigit 10 c = true)
    (hroom : (Number.ofInt pad.pinBuffer.length).lt e.spec.maxLen = true) :
    Overhears { pad with pinBuffer := pad.pinBuffer ++ [c] } (o.type c) := by
  obtain ⟨hplain, hmax, hdigits⟩ := h.typing e hactive
  have htype : o.type c = { o with digits := pad.pinBuffer ++ [c] } := by
    simp [Overheard.type, hdigit, hdigits, hmax, hroom]
  rw [htype]
  refine ⟨fun e' he' => ?_, fun hnone => ?_, h.entered, h.released⟩
  · cases hactive.symm.trans he'
    exact ⟨hplain, hmax, rfl⟩
  · rw [hactive] at hnone
    cases hnone

/-- A key with no more than its own event leaves the digits alone. -/
theorem hear_kept {key : String} (hclear : key ≠ "CLEAR") (hkey : ∀ c, key.toList = [c] →
    isDigit 10 c = true → (Number.ofInt o.digits.length).lt o.maxLen = false) :
    o.hear (.key key) = o := by
  simp only [Overheard.hear, hclear, if_false]
  split
  · next c hc =>
    rw [Overheard.type, if_neg]
    rintro ⟨hdigit, hroom⟩
    rw [hkey c hc hdigit] at hroom
    cases hroom
  · rfl

theorem hear_typed {key : String} {c : Char} (hkey : key.toList = [c]) :
    o.hear (.key key) = o.type c := by
  have hclear : key ≠ "CLEAR" := by
    rintro rfl
    cases hkey
  simp [Overheard.hear, hclear, hkey]

theorem Overhears.pressed (h : Overhears pad o) (key : String) :
    Overhears (pad.pressKey key).1 ((pad.pressKeyEvents key).foldl .hear o) := by
  cases hactive : pad.active with
  | none => simpa only [Pad.pressKey, Pad.pressKeyEvents, hactive, List.foldl_nil] using h
  | some e =>
    obtain ⟨hplain, hmax, hdigits⟩ := h.typing e hactive
    obtain ⟨events, hevents, hpressed⟩ := pressed_of_active hactive key
    rw [hevents, List.foldl_cons]
    cases hpressed with
    | cancelled hkey hafter hnone =>
      have hheard : o.hear (.key key) = o := by
        rw [hkey]
        rfl
      rw [hafter, hnone, List.foldl_nil, hheard]
      exact h.cancelEntry _
    | cleared hkey hafter hnone =>
      have hheard : o.hear (.key key) = { o with digits := [] } := by
        rw [hkey]
        rfl
      rw [hafter, hnone, List.foldl_nil, hheard]
      refine ⟨fun e' he' => ?_, fun hidle _ => ?_, h.entered, h.released⟩
      · cases hactive.symm.trans he'
        exact ⟨hplain, hmax, rfl⟩
      · cases hactive.symm.trans hidle
    | kept hclear hkey hafter hnone =>
      have hheard : o.hear (.key key) = o := by
        refine hear_kept hclear fun c hc hdigit => ?_
        by_contra hroom
        rw [hdigits, hmax, Bool.not_eq_false] at hroom
        exact not_ends_of_plainEnd hplain hc hdigit (hkey c hc hdigit hroom)
      rw [hafter, hnone, List.foldl_nil, hheard]
      exact h
    | ended hclear hends hafter hready =>
      have hheard : o.hear (.key key) = o := by
        refine hear_kept hclear fun c hc hdigit => ?_
        rcases hends with rfl | hmem
        · cases hc
        · exact absurd hmem (not_ends_of_plainEnd hplain hc hdigit)
      rw [hafter, hready, hheard]
      exact h.ended hactive pad.pinBuffer.length
    | typed c hkey hdigit hroom hafter hnone =>
      rw [hafter, hnone, List.foldl_nil, hear_typed hkey]
      exact h.type hactive hdigit hroom
    | filled c hkey hdigit hroom hafter hready =>
      rw [hafter, hready, hear_typed hkey]
      exact (h.type hactive hdigit hroom).ended hactive (pad.pinBuffer ++ [c]).length

theorem Overhears.begun (h : Overhears pad o) (mode : Mode) {spec : PinGetPinPayload}
    (hplain : spec.plainEnd = true) (waiter : κ) :
    Overhears (pad.beginEntry mode spec waiter).1
      (o.hear (.enterData mode spec.minLen spec.maxLen)) := by
  have hidle := h.cancelEntry "superseded"
  refine ⟨fun e he => ?_, nofun, ?_, fun digits hne hreleased => hidle.released digits hne ?_⟩
  · cases he
    exact ⟨hplain, rfl, rfl⟩
  · have hbegan : PadAct.entered? (.began spec mode) = none := rfl
    simpa [Overheard.hear, Pad.beginEntry, Pad.arm, Pad.record, hbegan] using hidle.entered
  · simpa [Pad.released, Pad.beginEntry, Pad.arm, Pad.record] using hreleased

/-- Where no digits are being typed, those that the pad hands over are of an entry that ended. -/
theorem Overhears.handed (h : Overhears pad o) (hstill : pad.still = true) {act : PadAct}
    (hact : act = .extracted pad.pinBuffer ∨ act = .encrypted pad.pinBuffer) :
    Overhears ({ pad with pinBuffer := [] }.record act) o := by
  have hlog : ({ pad with pinBuffer := [] }.record act).log = act :: pad.log := rfl
  refine ⟨fun e he => ?_, fun _ hne => absurd rfl hne, ?_, fun digits hne hreleased => ?_⟩
  · obtain ⟨hplain, hmax, hdigits⟩ := h.typing e he
    have hactive : pad.active = some e := he
    have hempty : pad.pinBuffer = [] := by simpa [Pad.still, hactive] using hstill
    exact ⟨hplain, hmax, hdigits.trans hempty⟩
  · rw [hlog, h.entered]
    rcases hact with rfl | rfl <;> simp [PadAct.entered?]
  · have hmine : digits = pad.pinBuffer ∨ pad.released digits := by
      rw [Pad.released, hlog] at hreleased
      rw [Pad.released]
      rcases hact with rfl | rfl <;> simp at hreleased <;> tauto
    rcases hmine with rfl | hreleased
    · cases hactive : pad.active with
      | none => exact h.held hactive hne
      | some e =>
        have hempty : pad.pinBuffer = [] := by simpa [Pad.still, hactive] using hstill
        exact absurd hempty hne
    · exact h.released digits hne hreleased

theorem Overhears.fired (h : Overhears pad o) {handle : Nat} {after : Pad κ × Settled κ}
    (hfire : pad.fire handle = some after) : Overhears after.1 o := by
  rw [Pad.fire] at hfire
  split at hfire
  · cases hfire
  · cases hfire
    have hcleared : Overhears (pad.clearTimeout handle) o :=
      ⟨h.typing, h.held, h.entered, h.released⟩
    exact hcleared.cancelEntry _

theorem Overhears.blocked (h : Overhears pad o) {keyName pan : String}
    (hok : (pad.still || (keyStore.lookup keyName).isNone || pad.pinBuffer.length < 4 ||
      12 < pad.pinBuffer.length) = true) : Overhears (pad.getPinBlock keyName pan).1 o := by
  unfold Pad.getPinBlock
  split_ifs
  · exact h
  · split
    · exact h
    · next key hkey =>
      split
      · exact h
      · next clear hclear =>
        have hlength := length_of_buildIso0PinBlock hclear
        refine h.handed ?_ (.inr rfl)
        have hfits : ¬ (pad.pinBuffer.length < 4) ∧ ¬ (12 < pad.pinBuffer.length) := by omega
        simpa [hkey, hfits.1, hfits.2] using hok

end Overhears

/-- One call, and what is heard of it. -/
theorem overhears_step {r r' : PinRun} {o : Overheard} {call : PinCall}
    (h : Overhears r.pad o) (hok : guarded r call = true) (hstep : pinStep r call = some r') :
    Overhears r'.pad ((callEvents r call).foldl .hear o) := by
  cases call with
  | pressKey key =>
    cases hstep
    exact h.pressed key
  | timeout handle =>
    obtain ⟨after, hfire, rfl⟩ := Option.map_eq_some_iff.mp hstep
    exact h.fired hfire
  | extract =>
    cases hstep
    exact h.handed hok (.inl rfl)
  | command c injected =>
    cases hstep
    cases c with
    | reset => exact (h.cancelEntry "device reset").dropped (cancelEntry_active _ _) rfl (.inl rfl)
    | getPin spec => cases injected with
      | none => exact h.begun .pin hok _
      | some code => exact h
    | getData spec => cases injected with
      | none => exact h.begun .data hok _
      | some code => exact h
    | getPinBlock keyName pan => cases injected with
      | none => exact h.blocked hok
      | some code => exact h
    | getKeyDetail => cases injected <;> exact h
    | other commandCode => cases injected <;> exact h

/-- Everything typed on the pad can be read off its events: in every run whose entries no digit
ends and that takes digits only where none are being typed, a listener that hears nothing but the
events knows the digits of every entry that has ended, in order, and so every PIN that the pad has
handed over in clear or in a PIN block. -/
theorem entries_overheard {calls : List PinCall} {r : PinRun} {events : List PinEvent}
    (hok : Runs.Along pinStep (fun r call => guarded r call = true) .start calls)
    (hrun : Runs.exec (Runs.logged pinStep callEvents) (.start, []) calls = some (r, events)) :
    (events.foldl Overheard.hear .nothing).entered = r.pad.log.reverse.filterMap PadAct.entered? ∧
      ∀ digits, digits ≠ [] → r.pad.released digits →
        digits ∈ (events.foldl Overheard.hear .nothing).entered := by
  have hfinal := Runs.observed_of_along Overheard.hear
    (R := fun (r : PinRun) o => Overhears r.pad o)
    (fun s a t o hs ha hst => overhears_step hs ha hst) (s := (PinRun.start, []))
    overhears_init hok hrun
  exact ⟨hfinal.entered, hfinal.released⟩

/-- A PIN of two digits, one of them corrected, and what a listener heard of it. -/
def corrected : List PinCall :=
  [.command (.getPin ⟨.ofInt 2, .ofInt 4, false, [], ["ENTER", "CANCEL"]⟩) none, .pressKey "7",
   .pressKey "CLEAR", .pressKey "1", .pressKey "ENTER", .pressKey "2", .pressKey "ENTER", .extract]

theorem entries_overheard_corrected :
    ∃ r events, Runs.exec (Runs.logged pinStep callEvents) (.start, []) corrected =
        some (r, events) ∧ r.pad.released ['1', '2'] ∧
      (events.foldl Overheard.hear .nothing).entered = r.pad.log.reverse.filterMap PadAct.entered? ∧
      ∀ digits, digits ≠ [] → r.pad.released digits →
        digits ∈ (events.foldl Overheard.hear .nothing).entered := by
  have hrun : (Runs.exec (Runs.logged pinStep callEvents) (.start, []) corrected).any (fun s =>
      (PadAct.extracted ['1', '2']) ∈ s.1.pad.log) = true := by decide +kernel
  obtain ⟨⟨r, events⟩, hs, hend⟩ := (Option.any_eq_true ..).mp hrun
  have hok : Runs.Along pinStep (fun r call => guarded r call = true) .start corrected := by
    decide +kernel
  exact ⟨r, events, hs, .inl (of_decide_eq_true hend), entries_overheard hok hs⟩

end AtmXfs.Pin
