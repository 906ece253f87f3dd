import AtmXfs.Pin.Entry

namespace AtmXfs.Pin

open Js

variable {κ : Type}

/-- The key leaves the buffer as it is and neither terminates nor cancels the entry. -/
def Pad.Dead (pad : Pad κ) (key : String) : Prop :=
  (pad.pressKey key).1.pinBuffer = pad.pinBuffer ∧
    (pad.pressKey key).1.active = pad.active ∧ (pad.pressKey key).2 = []

/-- The pad after a sequence of keys. -/
def Pad.pressAll (pad : Pad κ) (keys : List String) : Pad κ :=
  keys.foldl (fun pad key => (pad.pressKey key).1) pad

/-- What the pad does with a key that is in neither set: CANCEL always has its function, CLEAR
and ENTER have theirs where there is something to clear or enough to enter, and a digit is typed
where there is room. -/
def PinGetPinPayload.ignores (spec : PinGetPinPayload) (buffer : List Char) (key : String) : Prop :=
  key ≠ "CANCEL" ∧ (key = "CLEAR" → buffer = []) ∧
    (key = "ENTER" → (Number.ofInt buffer.length).lt spec.minLen = true) ∧
    ∀ c, key.toList = [c] → isDigit 10 c = true →
      (Number.ofInt buffer.length).lt spec.maxLen = false

theorem dead_of_same {pad : Pad κ} {key : String} (h : pad.pressKey key = (pad, [])) :
    pad.Dead key := by
  unfold Pad.Dead
  rw [h]
  exact ⟨rfl, rfl, rfl⟩

theorem cancelEntry_settles {pad : Pad κ} {entry : EntrySpec κ} (hactive : pad.active = some entry)
    (reason : String) : (pad.cancelEntry reason).2 = [(entry.waiter, .error reason)] := by
  simp only [Pad.cancelEntry, hactive]

theorem not_dead_of_settles {pad : Pad κ} {key : String} {s : κ × Except String Answer}
    (h : (pad.pressKey key).2 = [s]) : ¬ pad.Dead key := by
  intro hdead
  have hnone := hdead.2.2
  rw [h] at hnone
  cases hnone

theorem typeKey_dead_iff {pad : Pad κ} {entry : EntrySpec κ} (hactive : pad.active = some entry)
    {key : String} (hpress : pad.pressKey key = pad.typeKey entry.spec key) :
    pad.Dead key ↔ ∀ c, key.toList = [c] → isDigit 10 c = true →
      (Number.ofInt pad.pinBuffer.length).lt entry.spec.maxLen = false := by
  by_cases htyped : ∃ c, key.toList = [c] ∧ isDigit 10 c = true ∧
      (Number.ofInt pad.pinBuffer.length).lt entry.spec.maxLen = true
  · obtain ⟨c, hchars, hdigit, hroom⟩ := htyped
    apply iff_of_false
    · unfold Pad.typeKey at hpress
      simp only [hchars] at hpress
      rw [if_pos ⟨hdigit, hroom⟩] at hpress
      split_ifs at hpress
      · have hactive' : ({ pad with pinBuffer := pad.pinBuffer ++ [c] } : Pad κ).active =
            some entry := hactive
        apply not_dead_of_settles
        rw [hpress]
        exact (terminateEntry_eq hactive').1
      · intro hdead
        have hsame := hdead.1
        rw [hpress] at hsame
        simp at hsame
    · intro hall
      have hfull := hall c hchars hdigit
      rw [hroom] at hfull
      cases hfull
  · have hfull : ∀ c, key.toList = [c] → isDigit 10 c = true →
        (Number.ofInt pad.pinBuffer.length).lt entry.spec.maxLen = false := by
      intro c hchars hdigit
      rw [← Bool.not_eq_true]
      exact fun hroom => htyped ⟨c, hchars, hdigit, hroom⟩
    apply iff_of_true _ hfull
    apply dead_of_same
    rw [hpress]
    unfold Pad.typeKey
    split
    · next c hchars =>
      have hnot : ¬ (isDigit 10 c = true ∧
          (Number.ofInt pad.pinBuffer.length).lt entry.spec.maxLen = true) :=
        fun hboth => htyped ⟨c, hchars, hboth⟩
      rw [if_neg hnot]
    · rfl

/-- A key that terminates nothing is dead in an active entry exactly if the pad ignores it. -/
theorem pressKey_dead_iff {pad : Pad κ} {entry : EntrySpec κ} (hactive : pad.active = some entry)
    {key : String} (hkey : key ∉ entry.spec.terminateKeys) :
    pad.Dead key ↔ entry.spec.ignores pad.pinBuffer key := by
  unfold PinGetPinPayload.ignores
  by_cases hcancel : key = "CANCEL"
  · have hpress : pad.pressKey key = pad.cancelEntry "user cancelled" := by
      simp only [Pad.pressKey, hactive, hcancel, if_true]
    have hsettles := cancelEntry_settles hactive "user cancelled"
    rw [← hpress] at hsettles
    exact iff_of_false (not_dead_of_settles hsettles) fun hignores => hignores.1 hcancel
  by_cases hclear : key = "CLEAR"
  · have hpress : pad.pressKey key = ({ pad with pinBuffer := [] }, []) := by
      simp only [Pad.pressKey, hactive, hclear]
      rfl
    have hdead : pad.Dead key ↔ pad.pinBuffer = [] := by
      unfold Pad.Dead
      rw [hpress]
      simp only [and_true]
      exact eq_comm
    rw [hdead, hclear]
    simp
  by_cases henter : key = "ENTER"
  · have hends : entry.spec.endsAt key = true := by simp [PinGetPinPayload.endsAt, henter]
    have hpress := pressKey_ends hactive hcancel hclear hends
    have hdead : pad.Dead key ↔
        (Number.ofInt pad.pinBuffer.length).lt entry.spec.minLen = true := by
      split_ifs at hpress with hshort
      · exact iff_of_true (dead_of_same hpress) hshort
      · apply iff_of_false _ hshort
        apply not_dead_of_settles
        rw [hpress]
        exact (terminateEntry_eq hactive).1
    rw [hdead, henter]
    simp
  · have hends : entry.spec.endsAt key = false := by
      simp [PinGetPinPayload.endsAt, henter, hkey]
    have hdead := typeKey_dead_iff hactive (pressKey_types hactive hcancel hclear hends)
    rw [hdead]
    simp [hcancel, hclear, henter]

/-- No key gives the entry other bounds or other keys. -/
theorem spec_pressKey {pad : Pad κ} {spec : PinGetPinPayload}
    (h : ∀ entry, pad.active = some entry → entry.spec = spec) (key : String) :
    ∀ entry, (pad.pressKey key).1.active = some entry → entry.spec = spec := by
  have hnone : ∀ pad' : Pad κ, pad'.active = none →
      ∀ entry, pad'.active = some entry → entry.spec = spec := by
    intro pad' hactive entry hentry
    rw [hactive] at hentry
    cases hentry
  unfold Pad.pressKey
  split
  · exact h
  · split_ifs
    · exact hnone _ (cancelEntry_active pad _)
    · exact h
    · exact h
    · exact hnone _ (terminateEntry_active pad)
    · split
      · split_ifs
        · simp only
          split_ifs
          · exact hnone _ (terminateEntry_active _)
          · exact h
        · exact h
      · exact h

theorem spec_pressAll {pad : Pad κ} {spec : PinGetPinPayload}
    (h : ∀ entry, pad.active = some entry → entry.spec = spec) (keys : List String) :
    ∀ entry, (pad.pressAll keys).active = some entry → entry.spec = spec := by
  induction keys generalizing pad with
  | nil => exact h
  | cons key keys ih => exact ih (spec_pressKey h key)

/-- After GET_PIN or GET_DATA with any bounds and keys, and after any keys pressed since, a key
in neither set is dead exactly if the entry has ended or the pad ignores the key; what the active
keys are makes no difference. -/
theorem unlisted_key_dead_iff (pad : Pad κ) (mode : Mode) (spec : PinGetPinPayload) (waiter : κ)
    (keys : List String) {key : String}
    (hunlisted : key ∉ spec.activeKeys ∧ key ∉ spec.terminateKeys) :
    let now := (pad.beginEntry mode spec waiter).1.pressAll keys
    now.Dead key ↔ now.active = none ∨ spec.ignores now.pinBuffer key := by
  intro now
  have hspec : ∀ entry, now.active = some entry → entry.spec = spec := by
    apply spec_pressAll
    intro entry hentry
    cases hentry
    rfl
  cases hactive : now.active with
  | none =>
    have hsame : now.pressKey key = (now, []) := by simp only [Pad.pressKey, hactive]
    exact iff_of_true (dead_of_same hsame) (.inl rfl)
  | some entry =>
    have hentry := hspec entry hactive
    have hdead := pressKey_dead_iff hactive (hentry ▸ hunlisted.2)
    rw [hdead, hentry]
    exact (or_iff_right (Option.some_ne_none entry)).symm

/-- No key is active, and the fourth digit of a PIN is typed all the same; so is CANCEL heard. -/
theorem unlisted_keys_alive :
    let spec : PinGetPinPayload := ⟨.ofInt 4, .ofInt 6, false, [], []⟩
    let now := ((Pad.init : Pad Nat).beginEntry .pin spec 0).1.pressAll ["1", "2", "3"]
    ¬ now.Dead "4" ∧ ¬ now.Dead "CANCEL" := by
  constructor
  · intro hdead
    have hsame := hdead.1
    revert hsame
    decide +kernel
  · intro hdead
    have hsame := hdead.1
    revert hsame
    decide +kernel

theorem unlisted_key_dead_iff_enter :
    let spec : PinGetPinPayload := ⟨.ofInt 4, .ofInt 6, false, ["1", "2", "3"], []⟩
    let now := ((Pad.init : Pad Nat).beginEntry .pin spec 0).1.pressAll ["1", "2", "3"]
    now.Dead "ENTER" ↔ now.active = none ∨ spec.ignores now.pinBuffer "ENTER" :=
  unlisted_key_dead_iff Pad.init .pin ⟨.ofInt 4, .ofInt 6, false, ["1", "2", "3"], []⟩ 0
    ["1", "2", "3"] (by decide)

end AtmXfs.Pin
