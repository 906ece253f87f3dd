import AtmXfs.Pin.Overheard

namespace AtmXfs.Pin

open Js

def digitKey (key : String) : Bool :=
  match key.toList with
  | [c] => isDigit 10 c
  | _ => false

/-- A call, an event and an answer with the digits blacked out. -/
def maskCall : PinCall → Option PinCall
  | .pressKey key => if digitKey key then none else some (.pressKey key)
  | call => some call

def maskEvent : PinEvent → Option PinEvent
  | .key key => if digitKey key then none else some (.key key)
  | event => some event

def maskAnswer : Answer → Answer
  | .data digits => .data (digits.map fun _ => '*')
  | .pinBlock _ key => .pinBlock "" key
  | answer => answer

def maskSettled (s : Nat × Except String Answer) : Nat × Except String Answer :=
  (s.1, s.2.map maskAnswer)

/-- No digit ends an entry that a command begins. -/
def plainCall : PinCall → Bool
  | .command (.getPin spec) none => spec.plainEnd
  | .command (.getData spec) none => spec.plainEnd
  | _ => true

/-- Two pads in the same entry that hold the same number of digits. -/
structure AlikePad (pad pad' : Pad Nat) : Prop where
  active : pad'.active = pad.active
  timers : pad'.timers = pad.timers
  nextTimer : pad'.nextTimer = pad.nextTimer
  length : pad'.pinBuffer.length = pad.pinBuffer.length

structure AlikeAfter (after after' : Pad Nat × Settled Nat) : Prop where
  pad : AlikePad after.1 after'.1
  settled : after'.2.map maskSettled = after.2.map maskSettled

structure Alike (s s' : PinRun × List PinEvent) : Prop where
  pad : AlikePad s.1.pad s'.1.pad
  commands : s'.1.commands = s.1.commands
  settled : s'.1.settled.map maskSettled = s.1.settled.map maskSettled
  plain : ∀ e, s.1.pad.active = some e → e.spec.plainEnd = true
  events : s'.2.map maskEvent = s.2.map maskEvent

theorem digitKey_iff {key : String} :
    digitKey key = true ↔ ∃ c, key.toList = [c] ∧ isDigit 10 c = true := by
  unfold digitKey
  constructor
  · intro h
    split at h
    · next c hc => exact ⟨c, hc, h⟩
    · cases h
  · rintro ⟨c, hc, hdigit⟩
    rw [hc]
    exact hdigit

theorem mask_map {digits digits' : List Char} (h : digits'.length = digits.length) :
    digits'.map (fun _ => '*') = digits.map fun _ => '*' := by
  rw [List.map_const', List.map_const', h]

section AlikePad

variable {pad pad' : Pad Nat}

theorem AlikePad.cancelEntry (h : AlikePad pad pad') (reason : String) :
    AlikeAfter (pad.cancelEntry reason) (pad'.cancelEntry reason) := by
  unfold Pad.cancelEntry
  rw [h.active]
  cases pad.active with
  | none => exact ⟨h, rfl⟩
  | some e =>
    refine ⟨⟨rfl, ?_, h.nextTimer, rfl⟩, rfl⟩
    simp only [Pad.record, Pad.clearTimeout, h.timers]

theorem AlikePad.terminateEntry (h : AlikePad pad pad') :
    AlikeAfter pad.terminateEntry pad'.terminateEntry := by
  cases hactive : pad.active with
  | none =>
    simp only [Pad.terminateEntry, hactive, h.active]
    exact ⟨h, rfl⟩
  | some e =>
    simp only [Pad.terminateEntry, hactive, h.active]
    have htimers : (pad'.clearTimeout e.timeoutHandle).timers =
        (pad.clearTimeout e.timeoutHandle).timers := by
      simp only [Pad.clearTimeout, h.timers]
    cases hmode : e.mode with
    | pin =>
      refine ⟨⟨rfl, htimers, h.nextTimer, h.length⟩, ?_⟩
      rw [h.length]
    | data =>
      refine ⟨⟨rfl, htimers, h.nextTimer, rfl⟩, ?_⟩
      simp [maskSettled, maskAnswer, Except.map, mask_map h.length]

theorem AlikePad.terminateEvents (h : AlikePad pad pad') :
    pad'.terminateEvents = pad.terminateEvents := by
  rw [Pad.terminateEvents, Pad.terminateEvents, h.active, h.length]

theorem AlikePad.beginEntry (h : AlikePad pad pad') (mode : Mode) (spec : PinGetPinPayload)
    (waiter : Nat) :
    AlikeAfter (pad.beginEntry mode spec waiter) (pad'.beginEntry mode spec waiter) := by
  have hidle := h.cancelEntry "superseded"
  refine ⟨⟨?_, ?_, ?_, rfl⟩, hidle.settled⟩ <;>
    simp [Pad.beginEntry, Pad.arm, Pad.record, hidle.pad.timers, hidle.pad.nextTimer]

theorem AlikePad.type (h : AlikePad pad pad') (c c' : Char) :
    AlikePad { pad with pinBuffer := pad.pinBuffer ++ [c] }
      { pad' with pinBuffer := pad'.pinBuffer ++ [c'] } :=
  ⟨h.active, h.timers, h.nextTimer, by simp [h.length]⟩

/-- A key that is no digit, pressed on both pads. -/
theorem AlikePad.pressKey (h : AlikePad pad pad') {key : String} (hkey : digitKey key = false) :
    AlikeAfter (pad.pressKey key) (pad'.pressKey key) ∧
      pad'.pressKeyEvents key = pad.pressKeyEvents key := by
  have hsame : AlikeAfter (pad, []) (pad', []) := ⟨h, rfl⟩
  cases hactive : pad.active with
  | none =>
    simp only [Pad.pressKey, Pad.pressKeyEvents, hactive, h.active]
    exact ⟨hsame, trivial⟩
  | some e =>
    have hcleared : AlikeAfter ({ pad with pinBuffer := [] }, [])
        ({ pad' with pinBuffer := [] }, []) :=
      ⟨⟨h.active, h.timers, h.nextTimer, rfl⟩, rfl⟩
    simp only [Pad.pressKey, Pad.pressKeyEvents, hactive, h.active, h.length]
    simp only [hactive, h.active] at hcleared
    split_ifs
    · exact ⟨h.cancelEntry _, rfl⟩
    · exact ⟨hcleared, rfl⟩
    · exact ⟨hsame, rfl⟩
    · exact ⟨h.terminateEntry, by rw [h.terminateEvents]⟩
    · rcases hc : key.toList with _ | ⟨c, _ | ⟨d, rest⟩⟩
      · exact ⟨hsame, rfl⟩
      · have hdigit : isDigit 10 c = false := by
          by_contra hdigit
          rw [Bool.not_eq_false] at hdigit
          rw [digitKey_iff.mpr ⟨c, hc, hdigit⟩] at hkey
          cases hkey
        simp only [hdigit, Bool.false_eq_true, false_and, if_false]
        exact ⟨hsame, trivial⟩
      · exact ⟨hsame, rfl⟩

/-- What a digit does to an entry that no digit ends. -/
theorem pressKey_digit {e : EntrySpec Nat} (hactive : pad.active = some e)
    (hplain : e.spec.plainEnd = true) {key : String} {c : Char} (hkey : key.toList = [c])
    (hdigit : isDigit 10 c = true) :
    pad.pressKey key = (if (Number.ofInt pad.pinBuffer.length).lt e.spec.maxLen = true then
        if e.spec.autoEnd = true ∧
            Number.ofInt ((pad.pinBuffer.length + 1 : Nat) : Int) = e.spec.maxLen then
          { pad with pinBuffer := pad.pinBuffer ++ [c] }.terminateEntry
        else ({ pad with pinBuffer := pad.pinBuffer ++ [c] }, [])
      else (pad, [])) ∧
    pad.pressKeyEvents key = .key key ::
      (if (Number.ofInt pad.pinBuffer.length).lt e.spec.maxLen = true then
        if e.spec.autoEnd = true ∧
            Number.ofInt ((pad.pinBuffer.length + 1 : Nat) : Int) = e.spec.maxLen then
          { pad with pinBuffer := pad.pinBuffer ++ [c] }.terminateEvents
        else []
      else []) := by
  have hcancel : key ≠ "CANCEL" := by
    rintro rfl
    cases hkey
  have hclear : key ≠ "CLEAR" := by
    rintro rfl
    cases hkey
  have henter : key ≠ "ENTER" := by
    rintro rfl
    cases hkey
  have hends : key ∉ e.spec.terminateKeys := not_ends_of_plainEnd hplain hkey hdigit
  simp only [Pad.pressKey, Pad.pressKeyEvents, hactive, hcancel, hclear, henter, hends, or_self,
    if_false, hkey, hdigit, true_and, List.length_append, List.length_singleton, and_self]

/-- Two digits, one on each pad. -/
theorem AlikePad.pressDigits (h : AlikePad pad pad')
    (hplain : ∀ e, pad.active = some e → e.spec.plainEnd = true) {key key' : String}
    (hkey : digitKey key = true) (hkey' : digitKey key' = true) :
    AlikeAfter (pad.pressKey key) (pad'.pressKey key') ∧
      (pad'.pressKeyEvents key').map maskEvent = (pad.pressKeyEvents key).map maskEvent := by
  obtain ⟨c, hc, hdigit⟩ := digitKey_iff.mp hkey
  obtain ⟨c', hc', hdigit'⟩ := digitKey_iff.mp hkey'
  cases hactive : pad.active with
  | none =>
    have hactive' := h.active.trans hactive
    simp only [Pad.pressKey, Pad.pressKeyEvents, hactive, hactive']
    exact ⟨⟨h, rfl⟩, trivial⟩
  | some e =>
    obtain ⟨hpad, hevents⟩ := pressKey_digit hactive (hplain e hactive) hc hdigit
    obtain ⟨hpad', hevents'⟩ :=
      pressKey_digit (h.active.trans hactive) (hplain e hactive) hc' hdigit'
    rw [hpad, hpad', hevents, hevents', h.length]
    simp only [List.map_cons, maskEvent, hkey, hkey', if_true]
    split_ifs
    · exact ⟨(h.type c c').terminateEntry, by rw [(h.type c c').terminateEvents]⟩
    · exact ⟨⟨h.type c c', rfl⟩, rfl⟩
    · exact ⟨⟨h, rfl⟩, rfl⟩

theorem AlikePad.getPinBlock (h : AlikePad pad pad') (keyName pan : String) :
    AlikePad (pad.getPinBlock keyName pan).1 (pad'.getPinBlock keyName pan).1 ∧
      (pad'.getPinBlock keyName pan).2.map maskAnswer =
        (pad.getPinBlock keyName pan).2.map maskAnswer := by
  have hempty : pad'.pinBuffer = [] ↔ pad.pinBuffer = [] := by
    rw [← List.length_eq_zero_iff, h.length, List.length_eq_zero_iff]
  unfold Pad.getPinBlock
  simp only [hempty]
  split_ifs
  · exact ⟨h, rfl⟩
  · cases keyStore.lookup keyName with
    | none => exact ⟨h, rfl⟩
    | some key =>
      unfold buildIso0PinBlock
      simp only [h.length]
      split_ifs
      · exact ⟨h, rfl⟩
      · exact ⟨⟨h.active, h.timers, h.nextTimer, rfl⟩, rfl⟩

theorem AlikePad.executeCommand (h : AlikePad pad pad') (c : PinCommand) (waiter : Nat)
    (injected : Option String) :
    AlikeAfter (pad.executeCommand c waiter injected)
      (pad'.executeCommand c waiter injected) := by
  cases c with
  | reset =>
    have hidle := h.cancelEntry "device reset"
    refine ⟨⟨hidle.pad.active, hidle.pad.timers, hidle.pad.nextTimer, rfl⟩, ?_⟩
    simp only [Pad.executeCommand, List.map_append, hidle.settled]
  | getPin spec => cases injected with
    | none => exact h.beginEntry .pin spec waiter
    | some code => exact ⟨h, rfl⟩
  | getData spec => cases injected with
    | none => exact h.beginEntry .data spec waiter
    | some code => exact ⟨h, rfl⟩
  | getPinBlock keyName pan => cases injected with
    | none =>
      obtain ⟨hpad, hanswer⟩ := h.getPinBlock keyName pan
      refine ⟨hpad, ?_⟩
      simp only [Pad.executeCommand, List.map_cons, List.map_nil, maskSettled, hanswer]
    | some code => exact ⟨h, rfl⟩
  | getKeyDetail => cases injected <;> exact ⟨h, rfl⟩
  | other commandCode => cases injected <;> exact ⟨h, rfl⟩

theorem AlikePad.fire (h : AlikePad pad pad') {handle : Nat} {after : Pad Nat × Settled Nat}
    (hfire : pad.fire handle = some after) :
    ∃ after', pad'.fire handle = some after' ∧ AlikeAfter after after' := by
  unfold Pad.fire at hfire ⊢
  rw [h.timers]
  cases hfound : pad.timers.find? fun timer => timer.1 = handle with
  | none =>
    rw [hfound] at hfire
    cases hfire
  | some timer =>
    rw [hfound] at hfire
    cases hfire
    have hcleared : AlikePad (pad.clearTimeout handle) (pad'.clearTimeout handle) :=
      ⟨h.active, by simp only [Pad.clearTimeout, h.timers], h.nextTimer, h.length⟩
    exact ⟨_, rfl, hcleared.cancelEntry timer.2⟩

end AlikePad

/-- A key begins no entry. -/
theorem active_pressKey {pad : Pad Nat} {key : String} {e : EntrySpec Nat}
    (h : (pad.pressKey key).1.active = some e) : pad.active = some e := by
  cases hactive : pad.active with
  | none => simpa only [Pad.pressKey, hactive] using h
  | some entry =>
    obtain ⟨events, -, hpressed⟩ := pressed_of_active hactive key
    cases hpressed with
    | cancelled _ hafter _ =>
      rw [hafter, cancelEntry_active] at h
      cases h
    | cleared _ hafter _ =>
      rw [hafter] at h
      exact hactive.symm.trans h
    | kept _ _ hafter _ =>
      rw [hafter] at h
      exact hactive.symm.trans h
    | ended _ _ hafter _ =>
      rw [hafter, terminateEntry_active] at h
      cases h
    | typed _ _ _ _ hafter _ =>
      rw [hafter] at h
      exact hactive.symm.trans h
    | filled _ _ _ _ hafter _ =>
      rw [hafter, terminateEntry_active] at h
      cases h

theorem active_getPinBlock (pad : Pad Nat) (keyName pan : String) :
    (pad.getPinBlock keyName pan).1.active = pad.active := by
  unfold Pad.getPinBlock
  split_ifs
  · rfl
  · split
    · rfl
    · split <;> rfl

theorem plain_executeCommand {pad : Pad Nat}
    (hplain : ∀ e, pad.active = some e → e.spec.plainEnd = true) {c : PinCommand}
    {injected : Option String} (hok : plainCall (.command c injected) = true) (waiter : Nat) :
    ∀ e, (pad.executeCommand c waiter injected).1.active = some e → e.spec.plainEnd = true := by
  intro e he
  cases c with
  | reset =>
    simp only [Pad.executeCommand, cancelEntry_active, reduceCtorEq] at he
  | getPin spec => cases injected with
    | none =>
      cases he
      exact hok
    | some code => exact hplain e he
  | getData spec => cases injected with
    | none =>
      cases he
      exact hok
    | some code => exact hplain e he
  | getPinBlock keyName pan => cases injected with
    | none => exact hplain e ((active_getPinBlock pad keyName pan).symm.trans he)
    | some code => exact hplain e he
  | getKeyDetail => cases injected <;> exact hplain e he
  | other commandCode => cases injected <;> exact hplain e he

/-- Two calls that look alike press a digit each, or are the same. -/
theorem maskCall_cases {call call' : PinCall} (h : maskCall call = maskCall call') :
    (∃ key key', call = .pressKey key ∧ call' = .pressKey key' ∧ digitKey key = true ∧
      digitKey key' = true) ∨
    call' = call ∧ ∀ key, call = .pressKey key → digitKey key = false := by
  have hnone : ∀ call, maskCall call = none →
      ∃ key, call = .pressKey key ∧ digitKey key = true := by
    intro call hcall
    cases call with
    | pressKey key =>
      refine ⟨key, rfl, ?_⟩
      by_contra hdigit
      simp [maskCall, hdigit] at hcall
    | _ => cases hcall
  have hsome : ∀ call c, maskCall call = some c →
      c = call ∧ ∀ key, call = .pressKey key → digitKey key = false := by
    intro call c hcall
    cases call with
    | pressKey key =>
      cases hdigit : digitKey key with
      | true => simp [maskCall, hdigit] at hcall
      | false =>
        simp only [maskCall, hdigit, Bool.false_eq_true, if_false, Option.some.injEq] at hcall
        refine ⟨hcall.symm, fun other hother => ?_⟩
        cases hother
        exact hdigit
    | _ =>
      cases hcall
      exact ⟨rfl, nofun⟩
  cases hcall : maskCall call with
  | none =>
    obtain ⟨key, hkey, hdigit⟩ := hnone call hcall
    obtain ⟨key', hkey', hdigit'⟩ := hnone call' (h.symm.trans hcall)
    exact .inl ⟨key, key', hkey, hkey', hdigit, hdigit'⟩
  | some c =>
    obtain ⟨hc, hplain⟩ := hsome call c hcall
    obtain ⟨hc', -⟩ := hsome call' c (h.symm.trans hcall)
    exact .inr ⟨hc'.symm.trans hc, hplain⟩

/-- The states after two steps, from what the pads did. -/
theorem Alike.stepped {s s' t t' : PinRun × List PinEvent} (h : Alike s s')
    {after after' : Pad Nat × Settled Nat} (hafter : AlikeAfter after after')
    {events events' : List PinEvent} (hevents : events'.map maskEvent = events.map maskEvent)
    (hplain : ∀ e, after.1.active = some e → e.spec.plainEnd = true)
    (hpad : t.1.pad = after.1 ∧ t'.1.pad = after'.1)
    (hsettled : t.1.settled = s.1.settled ++ after.2 ∧ t'.1.settled = s'.1.settled ++ after'.2)
    (hlog : t.2 = s.2 ++ events ∧ t'.2 = s'.2 ++ events')
    (hcommands : t'.1.commands = t.1.commands) : Alike t t' where
  pad := by
    rw [hpad.1, hpad.2]
    exact hafter.pad
  commands := hcommands
  settled := by
    rw [hsettled.1, hsettled.2, List.map_append, List.map_append, h.settled, hafter.settled]
  plain := by
    rw [hpad.1]
    exact hplain
  events := by
    rw [hlog.1, hlog.2, List.map_append, List.map_append, h.events, hevents]

theorem alike_step {s s' t : PinRun × List PinEvent} {call call' : PinCall} (h : Alike s s')
    (hok : plainCall call = true) (hmask : maskCall call = maskCall call')
    (hstep : Runs.logged pinStep callEvents s call = some t) :
    ∃ t', Runs.logged pinStep callEvents s' call' = some t' ∧ Alike t t' := by
  rcases maskCall_cases hmask with ⟨key, key', rfl, rfl, hkey, hkey'⟩ | ⟨rfl, hother⟩
  · cases hstep
    obtain ⟨hafter, hevents⟩ := h.pad.pressDigits h.plain hkey hkey'
    exact ⟨_, rfl, h.stepped hafter hevents (fun e he => h.plain e (active_pressKey he))
      ⟨rfl, rfl⟩ ⟨rfl, rfl⟩ ⟨rfl, rfl⟩ h.commands⟩
  cases call' with
  | pressKey key =>
    cases hstep
    obtain ⟨hafter, hevents⟩ := h.pad.pressKey (hother key rfl)
    exact ⟨_, rfl, h.stepped hafter (congrArg _ hevents)
      (fun e he => h.plain e (active_pressKey he)) ⟨rfl, rfl⟩ ⟨rfl, rfl⟩ ⟨rfl, rfl⟩ h.commands⟩
  | command c injected =>
    cases hstep
    have hafter := h.pad.executeCommand c s.1.commands injected
    have hplain := plain_executeCommand h.plain hok s.1.commands
    refine ⟨_, rfl, h.stepped hafter rfl hplain ⟨rfl, ?_⟩ ⟨rfl, ?_⟩ ⟨rfl, rfl⟩ ?_⟩ <;>
      simp only [PinRun.command, h.commands]
  | timeout handle =>
    obtain ⟨r, hr, rfl⟩ := Option.map_eq_some_iff.mp hstep
    obtain ⟨after, hfire, rfl⟩ := Option.map_eq_some_iff.mp hr
    obtain ⟨after', hfire', hafter⟩ := h.pad.fire hfire
    refine ⟨(s'.1.take after', s'.2 ++ []), ?_, ?_⟩
    · simp [Runs.logged, pinStep, hfire', callEvents]
    · have hnone : ∀ e, after.1.active = some e → e.spec.plainEnd = true := by
        intro e he
        rw [Pad.fire] at hfire
        split at hfire
        · cases hfire
        · cases hfire
          rw [cancelEntry_active] at he
          cases he
      exact h.stepped hafter rfl hnone ⟨rfl, rfl⟩ ⟨rfl, rfl⟩ ⟨rfl, rfl⟩ h.commands
  | extract =>
    cases hstep
    have hafter : AlikeAfter (s.1.pad.extractEnteredPin, []) (s'.1.pad.extractEnteredPin, []) :=
      ⟨⟨h.pad.active, h.pad.timers, h.pad.nextTimer, rfl⟩, rfl⟩
    exact ⟨_, rfl, h.stepped hafter rfl h.plain ⟨rfl, rfl⟩
      ⟨(List.append_nil _).symm, (List.append_nil _).symm⟩ ⟨rfl, rfl⟩ h.commands⟩

/-- Of what the device answers and emits, the digits show in three places only: let two runs press
other digits in the same places, in entries that no digit ends; then they settle the same promises
in the same order, with the same answers but for the digits of GET_DATA and the block of
GET_PINBLOCK, and emit the same events but for the digits named in KEY. What extractEnteredPin hands
to the session is the digits themselves. -/
theorem digits_masked {calls calls' : List PinCall} {r : PinRun} {events : List PinEvent}
    (hok : ∀ call ∈ calls, plainCall call = true)
    (hcalls : calls.map maskCall = calls'.map maskCall)
    (hrun : Runs.exec (Runs.logged pinStep callEvents) (.start, []) calls = some (r, events)) :
    ∃ r' events',
      Runs.exec (Runs.logged pinStep callEvents) (.start, []) calls' = some (r', events') ∧
      r'.settled.map maskSettled = r.settled.map maskSettled ∧
      events'.map maskEvent = events.map maskEvent := by
  have hstart : Alike (.start, []) (.start, []) :=
    ⟨⟨rfl, rfl, rfl, rfl⟩, rfl, rfl, nofun, rfl⟩
  have halong := Runs.along_of_forall (Runs.logged pinStep callEvents) (PinRun.start, []) hok
  obtain ⟨t, ht, halike⟩ := Runs.exec_related maskCall (R := Alike)
    (fun s s' a a' t hs ha hmask hst => alike_step hs ha hmask hst) hstart halong hcalls hrun
  exact ⟨t.1, t.2, ht, halike.settled, halike.events⟩

/-- The same keys as in `corrected`, with other digits. -/
def otherwise : List PinCall :=
  [.command (.getPin ⟨.ofInt 2, .ofInt 4, false, [], ["ENTER", "CANCEL"]⟩) none, .pressKey "0",
   .pressKey "CLEAR", .pressKey "9", .pressKey "ENTER", .pressKey "9", .pressKey "ENTER", .extract]

theorem digits_masked_otherwise :
    ∃ r events r' events',
      Runs.exec (Runs.logged pinStep callEvents) (.start, []) corrected = some (r, events) ∧
      Runs.exec (Runs.logged pinStep callEvents) (.start, []) otherwise = some (r', events') ∧
      r'.settled.map maskSettled = r.settled.map maskSettled ∧
      events'.map maskEvent = events.map maskEvent := by
  obtain ⟨⟨r, events⟩, hs⟩ : ∃ s, Runs.exec (Runs.logged pinStep callEvents) (.start, [])
      corrected = some s := Option.isSome_iff_exists.mp (by decide +kernel)
  have hcalls : corrected.map maskCall = otherwise.map maskCall := rfl
  obtain ⟨r', events', hs', hsettled, hevents⟩ :=
    digits_masked (List.all_eq_true.mp (by decide)) hcalls hs
  exact ⟨r, events, r', events', hs, hs', hsettled, hevents⟩

end AtmXfs.Pin
