import AtmXfs.Pin.Release

namespace AtmXfs.Pin

open Js

/-- ENTER and the terminate keys end an entry, and any other key ends it only where it fills up
one with `autoEnd`. -/
def PinGetPinPayload.endsAt (spec : PinGetPinPayload) (key : String) : Bool :=
  key = "ENTER" ∨ key ∈ spec.terminateKeys

/-- What an entry that has terminated is answered with. -/
def entryAnswer : Mode → List Char → Answer
  | .pin, digits => .pinLength digits.length
  | .data, digits => .data digits

variable {κ : Type}

namespace Pad

def step (pad : Pad κ) (op : PadOp κ) : Option (Pad κ) := some (pad.after op)

/-- The last branch of `pressKey`, for a key that stands for no function. -/
def typeKey (pad : Pad κ) (spec : PinGetPinPayload) (key : String) : Pad κ × Settled κ :=
  match key.toList with
  | [c] =>
    if isDigit 10 c ∧ (Number.ofInt pad.pinBuffer.length).lt spec.maxLen then
      if spec.autoEnd ∧ Number.ofInt (pad.pinBuffer ++ [c]).length = spec.maxLen then
        { pad with pinBuffer := pad.pinBuffer ++ [c] }.terminateEntry
      else ({ pad with pinBuffer := pad.pinBuffer ++ [c] }, [])
    else (pad, [])
  | _ => (pad, [])

/-- Only digits are typed. -/
def Typed (pad : Pad κ) : Prop := ∀ c ∈ pad.pinBuffer, isDigit 10 c = true

end Pad

theorem Pad.Typed.of_empty {pad : Pad κ} (h : pad.pinBuffer = []) : pad.Typed := by
  intro c hc
  rw [h] at hc
  exact absurd hc List.not_mem_nil

theorem typed_cancelEntry {pad : Pad κ} (h : pad.Typed) (reason : String) :
    (pad.cancelEntry reason).1.Typed := by
  cases hactive : pad.active with
  | none => simpa only [Pad.cancelEntry, hactive] using h
  | some entry => exact .of_empty (by simp only [Pad.cancelEntry, hactive, Pad.record])

theorem cancelEntry_active (pad : Pad κ) (reason : String) :
    (pad.cancelEntry reason).1.active = none := by
  unfold Pad.cancelEntry
  split
  · assumption
  · rfl

theorem terminateEntry_active (pad : Pad κ) : pad.terminateEntry.1.active = none := by
  unfold Pad.terminateEntry
  split
  · assumption
  · split
    · rfl
    · rfl

/-- The entry that terminates, what it is answered with and what the log says of it. -/
theorem terminateEntry_eq {pad : Pad κ} {entry : EntrySpec κ} (hactive : pad.active = some entry) :
    pad.terminateEntry.2 = [(entry.waiter, .ok (entryAnswer entry.mode pad.pinBuffer))] ∧
      pad.terminateEntry.1.log.head? = some (.terminated entry.spec entry.mode pad.pinBuffer) ∧
      (pad.terminateEntry.1.pinBuffer = pad.pinBuffer ∨ pad.terminateEntry.1.pinBuffer = []) := by
  obtain ⟨spec, mode, waiter, handle⟩ := entry
  cases mode with
  | pin =>
    simp only [Pad.terminateEntry, hactive]
    exact ⟨rfl, rfl, Or.inl rfl⟩
  | data =>
    simp only [Pad.terminateEntry, hactive]
    exact ⟨rfl, rfl, Or.inr trivial⟩

theorem typed_terminateEntry {pad : Pad κ} (h : pad.Typed) : pad.terminateEntry.1.Typed := by
  cases hactive : pad.active with
  | none => simpa only [Pad.terminateEntry, hactive] using h
  | some entry =>
    obtain ⟨-, -, hsame | hempty⟩ := terminateEntry_eq hactive
    · unfold Pad.Typed
      rw [hsame]
      exact h
    · exact .of_empty hempty

theorem Pad.Typed.append {pad : Pad κ} (h : pad.Typed) {c : Char} (hc : isDigit 10 c = true) :
    ({ pad with pinBuffer := pad.pinBuffer ++ [c] } : Pad κ).Typed := by
  intro d hd
  rcases List.mem_append.mp hd with hd | hd
  · exact h d hd
  · rw [List.mem_singleton.mp hd]
    exact hc

theorem typed_pressKey {pad : Pad κ} (h : pad.Typed) (key : String) : (pad.pressKey key).1.Typed := by
  unfold Pad.pressKey
  split
  · exact h
  · split_ifs
    · exact typed_cancelEntry h _
    · exact .of_empty rfl
    · exact h
    · exact typed_terminateEntry h
    · split
      · split_ifs with hroom
        · simp only
          split_ifs
          · exact typed_terminateEntry (h.append hroom.1)
          · exact h.append hroom.1
        · exact h
      · exact h

theorem typed_getPinBlock {pad : Pad κ} (h : pad.Typed) (keyName pan : String) :
    (pad.getPinBlock keyName pan).1.Typed := by
  unfold Pad.getPinBlock
  split_ifs
  · exact h
  · split
    · exact h
    · split
      · exact h
      · exact .of_empty rfl

theorem typed_executeCommand {pad : Pad κ} (h : pad.Typed) (command : PinCommand) (waiter : κ)
    (injected : Option String) : (pad.executeCommand command waiter injected).1.Typed := by
  unfold Pad.executeCommand
  split
  · exact .of_empty rfl
  · exact h
  · exact .of_empty rfl
  · exact .of_empty rfl
  · exact typed_getPinBlock h _ _
  · exact h
  · exact h

/-- Whatever the pad is made to do, it holds digits. -/
theorem typed_after {pad : Pad κ} (h : pad.Typed) (op : PadOp κ) : (pad.after op).Typed := by
  cases op with
  | pressKey key => exact typed_pressKey h key
  | executeCommand command waiter injected => exact typed_executeCommand h command waiter injected
  | timeout handle =>
    rw [Pad.after, Pad.fire]
    split
    · exact h
    · have hcleared : (pad.clearTimeout handle).Typed := h
      exact typed_cancelEntry hcleared _
  | extract => exact .of_empty rfl

theorem typed_of_reaches {pad pad' : Pad κ} (h : pad.Typed)
    (hreach : Runs.Reaches Pad.step Runs.free pad pad') : pad'.Typed := by
  have hstep : ∀ (s : Pad κ) (op : PadOp κ) (t : Pad κ), s.Typed → Runs.free s op →
      s.step op = some t → t.Typed := by
    intro s op t hs _ hstep
    cases hstep
    exact typed_after hs op
  exact Runs.Reaches.invariant hstep h hreach

theorem pressKey_ends {pad : Pad κ} {entry : EntrySpec κ} (hactive : pad.active = some entry)
    {key : String} (hcancel : key ≠ "CANCEL") (hclear : key ≠ "CLEAR")
    (hends : entry.spec.endsAt key = true) :
    pad.pressKey key = if (Number.ofInt pad.pinBuffer.length).lt entry.spec.minLen then (pad, [])
      else pad.terminateEntry := by
  have hkey : key = "ENTER" ∨ key ∈ entry.spec.terminateKeys := by
    simpa [PinGetPinPayload.endsAt] using hends
  simp only [Pad.pressKey, hactive, hcancel, hclear, hkey, if_false, if_true]

theorem pressKey_types {pad : Pad κ} {entry : EntrySpec κ} (hactive : pad.active = some entry)
    {key : String} (hcancel : key ≠ "CANCEL") (hclear : key ≠ "CLEAR")
    (hends : entry.spec.endsAt key = false) : pad.pressKey key = pad.typeKey entry.spec key := by
  have hkey : ¬ (key = "ENTER" ∨ key ∈ entry.spec.terminateKeys) := by
    simpa [PinGetPinPayload.endsAt] using hends
  obtain ⟨buffer, active, timers, nextTimer, log⟩ := pad
  obtain rfl : active = some entry := hactive
  rcases hchars : key.toList with _ | ⟨c, _ | ⟨d, rest⟩⟩
  · simp only [Pad.pressKey, Pad.typeKey, hchars, hcancel, hclear, hkey, if_false]
  · simp only [Pad.pressKey, Pad.typeKey, hchars, hcancel, hclear, hkey, if_false]
  · simp only [Pad.pressKey, Pad.typeKey, hchars, hcancel, hclear, hkey, if_false]

/-- The key at which an entry ends well, with the digits it ends with. -/
theorem pressKey_ended {pad : Pad κ} (htyped : pad.Typed) {entry : EntrySpec κ}
    (hactive : pad.active = some entry) {key : String} {answer : Answer}
    (h : (pad.pressKey key).2 = [(entry.waiter, .ok answer)]) :
    ∃ digits, answer = entryAnswer entry.mode digits ∧ (∀ c ∈ digits, isDigit 10 c = true) ∧
      (pad.pressKey key).1.log.head? = some (.terminated entry.spec entry.mode digits) ∧
      (entry.spec.endsAt key = true → digits = pad.pinBuffer) := by
  by_cases hcancel : key = "CANCEL"
  · simp [Pad.pressKey, Pad.cancelEntry, hactive, hcancel] at h
  by_cases hclear : key = "CLEAR"
  · simp [Pad.pressKey, hactive, hclear] at h
  cases hends : entry.spec.endsAt key with
  | true =>
    rw [pressKey_ends hactive hcancel hclear hends] at h ⊢
    split_ifs at h ⊢ with hshort
    obtain ⟨hsettled, hlog, -⟩ := terminateEntry_eq hactive
    rw [hsettled] at h
    cases h
    exact ⟨pad.pinBuffer, rfl, htyped, hlog, fun _ => rfl⟩
  | false =>
    rw [pressKey_types hactive hcancel hclear hends, Pad.typeKey] at h ⊢
    split at h
    · rename_i c hkey
      split_ifs at h ⊢ with hroom hfull
      let typed : Pad κ := { pad with pinBuffer := pad.pinBuffer ++ [c] }
      have hactive' : typed.active = some entry := hactive
      obtain ⟨hsettled, hlog, -⟩ := terminateEntry_eq hactive'
      rw [hsettled] at h
      cases h
      exact ⟨typed.pinBuffer, rfl, htyped.append hroom.1, hlog, nofun⟩
    · cases h

end AtmXfs.Pin
