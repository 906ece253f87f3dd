import AtmXfs.Dll.Payload
import AtmXfs.Ptr.Device

namespace AtmXfs.Dll

open Js JsonText Ptr
open Framing (Bytes)

/-- RAW_DATA with a payload as it comes over the wire; a frame that is no JSON is dropped. -/
def executeRawData (s : PtrDeviceService) (now : Instant) (payload : Bytes) :
    Option (Except PtrError PtrResult) × PtrDeviceService :=
  match parse payload with
  | some json =>
    let r := executeCommand s now (.rawData (json.get (utf16 "data")))
    (some r.1, r.2)
  | none => (none, s)

/-- What the printer records of the buffer. -/
def recorded (req : RawData) : Text :=
  if req.lpbData.all isPrintable then chars req.lpbData else []

/-- A buffer with something in it to print, all of which `data` can carry. -/
def IsText (req : RawData) : Prop := req.lpbData ≠ [] ∧ req.lpbData.all isPrintable = true

instance (req : RawData) : Decidable (IsText req) :=
  inferInstanceAs (Decidable (req.lpbData ≠ [] ∧ req.lpbData.all isPrintable = true))

theorem get_data (req : RawData) :
    (expectedRawData req).get (utf16 "data") = some (.str (recorded req)) := by
  unfold expectedRawData recorded
  split_ifs with hprintable
  · rfl
  · rfl

theorem executeRawData_content {s : PtrDeviceService} (hs : Ready s) (now : Instant)
    (req : RawData) :
    lastContent (executeRawData s now (marshalPtrRawData (some req))).2 =
      some (some (.str (recorded req))) := by
  rw [executeRawData, marshalPtrRawData_parse]
  simp only
  rw [get_data]
  exact executeCommand_rawData hs now _

theorem chars_injective {a b : Bytes} (h : chars a = chars b) : a = b := by
  have hunit : Function.Injective fun b : UInt8 => b.toUInt16 := by
    intro x y hxy
    have hnat : x.toUInt16.toNat = y.toUInt16.toNat := congrArg UInt16.toNat hxy
    rw [UInt8.toNat_toUInt16, UInt8.toNat_toUInt16] at hnat
    exact UInt8.toNat_inj.mp hnat
  exact hunit.list_map h

theorem recorded_of_isText {req : RawData} (h : IsText req) : recorded req = chars req.lpbData := by
  rw [recorded, if_pos h.2]

/-- Of an empty buffer and of a binary one nothing is recorded. -/
theorem recorded_of_not_isText {req : RawData} (h : ¬IsText req) : recorded req = [] := by
  rw [recorded]
  split_ifs with hprintable
  · have hempty : req.lpbData = [] := by
      by_contra hne
      exact h ⟨hne, hprintable⟩
    rw [hempty]
    rfl
  · rfl

theorem recorded_ne_nil {req : RawData} (h : IsText req) : recorded req ≠ [] := by
  rw [recorded_of_isText h]
  exact fun hnil => h.1 (List.map_eq_nil_iff.mp hnil)

theorem isText_of_recorded_eq {req req' : RawData} (h : IsText req)
    (heq : recorded req = recorded req') : IsText req' := by
  by_contra hnot
  rw [recorded_of_not_isText hnot] at heq
  exact recorded_ne_nil h heq

/-- A text is told from every other buffer by its recorded content. -/
theorem eq_of_recorded_eq {req req' : RawData} (h : IsText req)
    (heq : recorded req = recorded req') : req.lpbData = req'.lpbData := by
  have h' : IsText req' := isText_of_recorded_eq h heq
  rw [recorded_of_isText h, recorded_of_isText h'] at heq
  exact chars_injective heq

/-- Two buffers are told apart in the history exactly if one of them is a text. -/
theorem contents_tell_apart {s s' : PtrDeviceService} (hs : Ready s) (hs' : Ready s')
    (now now' : Instant) (req req' : RawData) :
    (lastContent (executeRawData s now (marshalPtrRawData (some req))).2 =
        lastContent (executeRawData s' now' (marshalPtrRawData (some req'))).2 →
      req.lpbData = req'.lpbData) ↔
      req.lpbData = req'.lpbData ∨ IsText req ∨ IsText req' := by
  rw [executeRawData_content hs, executeRawData_content hs']
  simp only [Option.some.injEq, Json.str.injEq]
  constructor
  · intro hlaw
    by_cases h : IsText req
    · exact Or.inr (Or.inl h)
    by_cases h' : IsText req'
    · exact Or.inr (Or.inr h')
    · have heq : recorded req = recorded req' := by
        rw [recorded_of_not_isText h, recorded_of_not_isText h']
      exact Or.inl (hlaw heq)
  · rintro (hsame | h | h') heq
    · exact hsame
    · exact eq_of_recorded_eq h heq
    · exact (eq_of_recorded_eq h' heq.symm).symm

/-- A printer as it is built. -/
theorem fresh_ready : Ready Ptr.fresh := ⟨rfl, by decide⟩

def firstInstant : Instant where
  base36 := utf16 "0"
  iso := utf16 "1970-01-01T00:00:00.000Z"
  locale := utf16 "1/1/1970, 07.00.00"

/-- A buffer of two bytes. -/
def twoBytes (a b : UInt8) : RawData := ⟨[a, b], by simp⟩

theorem hello_tells_apart :
    lastContent (executeRawData Ptr.fresh firstInstant
        (marshalPtrRawData (some (twoBytes 0x48 0x69)))).2 ≠
      lastContent (executeRawData Ptr.fresh firstInstant
        (marshalPtrRawData (some (twoBytes 0x1b 0x69)))).2 := by
  have hiff := contents_tell_apart fresh_ready fresh_ready firstInstant firstInstant
    (twoBytes 0x48 0x69) (twoBytes 0x1b 0x69)
  exact fun heq => absurd (hiff.mpr (Or.inr (Or.inl (by decide))) heq) (by decide)

/-- A full cut and a partial one are recorded as the same receipt. -/
theorem cuts_merged :
    (twoBytes 0x1b 0x69).lpbData ≠ (twoBytes 0x1b 0x6d).lpbData ∧
      lastContent (executeRawData Ptr.fresh firstInstant
          (marshalPtrRawData (some (twoBytes 0x1b 0x69)))).2 =
        lastContent (executeRawData Ptr.fresh firstInstant
          (marshalPtrRawData (some (twoBytes 0x1b 0x6d)))).2 := by
  refine ⟨by decide, ?_⟩
  rw [executeRawData_content fresh_ready, executeRawData_content fresh_ready]
  rfl

end AtmXfs.Dll
