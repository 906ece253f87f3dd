import AtmXfs.Lib.Runs
import AtmXfs.Pin.Device

namespace AtmXfs.Pin

open Js

/-- What the rest of the system makes the PIN pad do. -/
inductive PadOp (κ : Type) where
  | pressKey (key : String)
  | executeCommand (command : PinCommand) (waiter : κ) (injected : Option String)
  | timeout (handle : Nat)
  | extract

/-- The length lies between the bounds of the entry. -/
def PinGetPinPayload.fits (spec : PinGetPinPayload) (n : Nat) : Bool :=
  spec.minLen.le (.ofInt n) && (Number.ofInt n).le spec.maxLen

/-- Digits leave the pad only as an entry of a PIN that has just terminated. -/
def releasedWhole (act : PadAct) (older : List PadAct) : Prop :=
  match act with
  | .extracted digits => digits ≠ [] → ∃ spec rest,
      older = .terminated spec .pin digits :: rest ∧ spec.fits digits.length = true
  | .encrypted digits => digits ≠ [] → ∃ spec rest,
      older = .terminated spec .pin digits :: rest ∧ spec.fits digits.length = true
  | _ => True

/-- The bounds are such that whatever ends the entry ends it between them. -/
def PinGetPinPayload.sound (spec : PinGetPinPayload) : Bool :=
  spec.minLen ≠ .nan &&
    (match spec.maxLen with
      | .fin q => (Number.fin q).toInt?.isSome
      | _ => true) &&
    !(spec.autoEnd && spec.maxLen.lt spec.minLen)

namespace Pad

variable {κ : Type}

def after (pad : Pad κ) : PadOp κ → Pad κ
  | .pressKey key => (pad.pressKey key).1
  | .executeCommand command waiter injected => (pad.executeCommand command waiter injected).1
  | .timeout handle => ((pad.fire handle).map Prod.fst).getD pad
  | .extract => pad.extractEnteredPin

/-- No digits are being typed. -/
def still (pad : Pad κ) : Bool := pad.active.isNone || pad.pinBuffer.isEmpty

/-- Digits are asked for only where none are being typed, and the bounds of an entry are sound. -/
def discreet (pad : Pad κ) : PadOp κ → Bool
  | .extract => pad.still
  | .executeCommand (.getPin spec) _ none => spec.sound
  | .executeCommand (.getPinBlock keyName _) _ none =>
    pad.still || (keyStore.lookup keyName).isNone || pad.pinBuffer.length < 4 ||
      12 < pad.pinBuffer.length
  | _ => true

end Pad

/-- What is typed fits below the upper bound, and what is left in the buffer has terminated. -/
structure Sealed {κ : Type} (pad : Pad κ) : Prop where
  typing : ∀ entry, pad.active = some entry → entry.mode = .pin →
    entry.spec.sound = true ∧
      (pad.pinBuffer ≠ [] → (Number.ofInt pad.pinBuffer.length).le entry.spec.maxLen = true)
  typed : pad.active = none → pad.pinBuffer ≠ [] → ∃ spec rest,
    pad.log = .terminated spec .pin pad.pinBuffer :: rest ∧
      spec.fits pad.pinBuffer.length = true
  released : Runs.Each releasedWhole pad.log

section Sealed

variable {κ : Type} {pad : Pad κ}

theorem sealed_init : Sealed (Pad.init : Pad κ) :=
  ⟨nofun, fun _ hbuffer => absurd rfl hbuffer, trivial⟩

theorem sealed_clear (h : Sealed pad) : Sealed { pad with pinBuffer := [] } where
  typing entry hentry hmode := ⟨(h.typing entry hentry hmode).1, fun hbuffer => absurd rfl hbuffer⟩
  typed _ hbuffer := absurd rfl hbuffer
  released := h.released

theorem sealed_clearTimeout (h : Sealed pad) (handle : Nat) : Sealed (pad.clearTimeout handle) :=
  ⟨h.typing, h.typed, h.released⟩

theorem sealed_cancelEntry (h : Sealed pad) (reason : String) :
    Sealed (pad.cancelEntry reason).1 := by
  unfold Pad.cancelEntry
  split
  · exact h
  · exact ⟨nofun, fun _ hbuffer => absurd rfl hbuffer, trivial, h.released⟩

/-- The entry ends with what it has typed, which is long enough. -/
theorem sealed_terminateEntry (h : Sealed pad) (hlong : ∀ entry, pad.active = some entry →
    entry.mode = .pin → pad.pinBuffer ≠ [] →
      entry.spec.minLen.le (.ofInt pad.pinBuffer.length) = true) :
    Sealed pad.terminateEntry.1 := by
  unfold Pad.terminateEntry
  split
  · exact h
  · next entry hactive =>
    cases hmode : entry.mode with
    | pin =>
      refine ⟨nofun, ?_, trivial, h.released⟩
      intro _ hbuffer
      refine ⟨entry.spec, pad.log, rfl, ?_⟩
      have hmin := hlong entry hactive hmode hbuffer
      have hmax := (h.typing entry hactive hmode).2 hbuffer
      exact Bool.and_eq_true_iff.mpr ⟨hmin, hmax⟩
    | data => exact ⟨nofun, fun _ hbuffer => absurd rfl hbuffer, trivial, h.released⟩

theorem PinGetPinPayload.sound_iff {spec : PinGetPinPayload} : spec.sound = true ↔
    spec.minLen ≠ .nan ∧ (∀ q, spec.maxLen = .fin q → spec.maxLen.toInt?.isSome = true) ∧
      (spec.autoEnd = true → spec.maxLen.lt spec.minLen = false) := by
  unfold PinGetPinPayload.sound
  cases spec.maxLen <;> cases spec.autoEnd <;> simp [and_assoc]

theorem sealed_type (h : Sealed pad) {entry : EntrySpec κ} (hactive : pad.active = some entry)
    {c : Char} (hroom : (Number.ofInt pad.pinBuffer.length).lt entry.spec.maxLen = true) :
    Sealed { pad with pinBuffer := pad.pinBuffer ++ [c] } where
  typing other hother hmode := by
    cases hactive.symm.trans hother
    obtain ⟨hsound, -⟩ := h.typing entry hactive hmode
    refine ⟨hsound, fun _ => ?_⟩
    have hwhole := (PinGetPinPayload.sound_iff.mp hsound).2.1
    simpa using Number.succ_le_of_lt hwhole hroom
  typed hnone := by
    cases hactive.symm.trans hnone
  released := h.released

theorem sealed_pressKey (h : Sealed pad) (key : String) : Sealed (pad.pressKey key).1 := by
  unfold Pad.pressKey
  split
  · exact h
  · next entry hactive =>
    split
    · exact sealed_cancelEntry h _
    · split
      · exact sealed_clear h
      · split
        · split
          · exact h
          · next hlong =>
            apply sealed_terminateEntry h
            intro other hother hmode _
            cases hactive.symm.trans hother
            have hmin := (PinGetPinPayload.sound_iff.mp (h.typing entry hactive hmode).1).1
            exact Number.le_of_not_lt hmin (by simp [Number.ofInt]) (by simpa using hlong)
        · split
          · split
            · next c _ hdigit =>
              have htyped := sealed_type h hactive (c := c) hdigit.2
              dsimp only
              split
              · next hend =>
                apply sealed_terminateEntry htyped
                intro other hother hmode _
                cases hactive.symm.trans hother
                have hsound := PinGetPinPayload.sound_iff.mp (h.typing entry hactive hmode).1
                have hbounds := hsound.2.2 hend.1
                rw [← hend.2] at hbounds
                exact Number.le_of_not_lt hsound.1 (by simp [Number.ofInt]) hbounds
              · exact htyped
            · exact h
          · exact h

theorem sealed_beginEntry (h : Sealed pad) (mode : Mode) (spec : PinGetPinPayload)
    (hsound : mode = .pin → spec.sound = true) (waiter : κ) :
    Sealed (pad.beginEntry mode spec waiter).1 where
  typing entry hentry hmode := by
    cases hentry
    exact ⟨hsound hmode, fun hbuffer => absurd rfl hbuffer⟩
  typed _ hbuffer := absurd rfl hbuffer
  released := ⟨trivial, (sealed_cancelEntry h "superseded").released⟩

/-- The digits that are still there have terminated. -/
theorem Sealed.whole (h : Sealed pad) (hstill : pad.still = true) (hbuffer : pad.pinBuffer ≠ []) :
    ∃ spec rest, pad.log = .terminated spec .pin pad.pinBuffer :: rest ∧
      spec.fits pad.pinBuffer.length = true := by
  apply h.typed _ hbuffer
  simpa [Pad.still, hbuffer] using hstill

theorem sealed_extractEnteredPin (h : Sealed pad) (hstill : pad.still = true) :
    Sealed pad.extractEnteredPin where
  typing entry hentry hmode := ⟨(h.typing entry hentry hmode).1, fun hbuffer => absurd rfl hbuffer⟩
  typed _ hbuffer := absurd rfl hbuffer
  released := ⟨h.whole hstill, h.released⟩

theorem length_of_buildIso0PinBlock {pin : List Char} {pan clear : String}
    (h : buildIso0PinBlock pin pan = .ok clear) : ¬ (pin.length < 4 ∨ 12 < pin.length) := by
  unfold buildIso0PinBlock at h
  split at h
  · cases h
  · next hlength => exact hlength

theorem sealed_getPinBlock (h : Sealed pad) {keyName pan : String} {waiter : κ}
    (hok : pad.discreet (.executeCommand (.getPinBlock keyName pan) waiter none) = true) :
    Sealed (pad.getPinBlock keyName pan).1 := by
  unfold Pad.getPinBlock
  split
  · exact h
  · split
    · exact h
    · next key hkey =>
      split
      · exact h
      · next clear hclear =>
        have hlength := length_of_buildIso0PinBlock hclear
        have hstill : pad.still = true := by
          simpa [Pad.discreet, hkey, not_or.mp hlength] using hok
        have hwhole := h.whole hstill
        refine ⟨?_, fun _ hbuffer => absurd rfl hbuffer, hwhole, h.released⟩
        intro entry hentry hmode
        exact ⟨(h.typing entry hentry hmode).1, fun hbuffer => absurd rfl hbuffer⟩

theorem sealed_executeCommand (h : Sealed pad) {command : PinCommand} {waiter : κ}
    {injected : Option String}
    (hok : pad.discreet (.executeCommand command waiter injected) = true) :
    Sealed (pad.executeCommand command waiter injected).1 := by
  cases command with
  | reset => exact sealed_clear (sealed_cancelEntry h _)
  | getPin spec =>
    cases injected with
    | none => exact sealed_beginEntry h .pin spec (fun _ => hok) waiter
    | some code => exact h
  | getData spec =>
    cases injected with
    | none => exact sealed_beginEntry h .data spec nofun waiter
    | some code => exact h
  | getPinBlock keyName pan =>
    cases injected with
    | none => exact sealed_getPinBlock h hok
    | some code => exact h
  | getKeyDetail => cases injected <;> exact h
  | other commandCode => cases injected <;> exact h

theorem sealed_fire (h : Sealed pad) {handle : Nat} {after : Pad κ × Settled κ}
    (hafter : pad.fire handle = some after) : Sealed after.1 := by
  unfold Pad.fire at hafter
  split at hafter
  · cases hafter
  · cases hafter
    exact sealed_cancelEntry (sealed_clearTimeout h handle) _

/-- What the pad is made to do keeps its digits together. -/
theorem sealed_after (h : Sealed pad) {op : PadOp κ} (hok : pad.discreet op = true) :
    Sealed (pad.after op) := by
  cases op with
  | pressKey key => exact sealed_pressKey h key
  | executeCommand command waiter injected => exact sealed_executeCommand h hok
  | timeout handle =>
    cases hafter : pad.fire handle with
    | none => simpa [Pad.after, hafter] using h
    | some after => simpa [Pad.after, hafter] using sealed_fire h hafter
  | extract => exact sealed_extractEnteredPin h hok

end Sealed

end AtmXfs.Pin
