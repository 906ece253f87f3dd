import AtmXfs.Iso8583.Codec

namespace AtmXfs.Iso8583

open Js

/-- The encoder refuses a value for its length only behind a length prefix. -/
def FieldDef.accepts (defn : FieldDef) (value : Text) : Bool :=
  match defn.kind with
  | .fixed | .numeric => true
  | .llvar | .lllvar => value.length ≤ defn.length

/-- The field can hold the value without loss. -/
def FieldDef.represents (defn : FieldDef) (value : Text) : Bool :=
  match defn.kind with
  | .fixed | .llvar | .lllvar => value.length ≤ defn.length
  | .numeric => value.length ≤ defn.length ∧ value.all isDigitUnit

/-- Every field is a listed one of the primary bitmap, and no value is too long for its prefix. -/
def IsoMessage.Encodable (msg : IsoMessage) : Prop :=
  ∀ f value, msg.fields.lookup f = some value →
    ∃ defn, FIELDS f = some defn ∧ f ≤ 64 ∧ defn.accepts value = true

/-- Every field is a listed one and can hold its value without loss. -/
def IsoMessage.Lossless (msg : IsoMessage) : Prop :=
  ∀ f value, msg.fields.lookup f = some value →
    ∃ defn, FIELDS f = some defn ∧ defn.represents value = true

theorem field_pos {f : Int} {defn : FieldDef} (h : FIELDS f = some defn) : 1 ≤ f := by
  have hall : ∀ row ∈ fieldTable, 1 ≤ row.1 := by decide
  obtain ⟨before, after, htable, -⟩ := List.lookup_eq_some_iff.mp h
  exact hall (f, defn) (by simp [htable])

theorem encodeVar_iff {defn : FieldDef} {digits : Nat} {value : Text} :
    (∃ part, encodeVar defn digits value = .ok part) ↔ value.length ≤ defn.length := by
  rw [encodeVar]
  split_ifs with hlong
  · constructor
    · rintro ⟨part, h⟩
      cases h
    · intro hle
      omega
  · exact ⟨fun _ => Nat.le_of_not_lt hlong, fun _ => ⟨_, rfl⟩⟩

theorem encodeField_iff {defn : FieldDef} {value : Text} :
    (∃ part, encodeField defn value = .ok part) ↔ defn.accepts value = true := by
  unfold encodeField FieldDef.accepts
  cases hkind : defn.kind with
  | fixed | numeric => exact ⟨fun _ => rfl, fun _ => ⟨_, rfl⟩⟩
  | llvar | lllvar => exact encodeVar_iff.trans decide_eq_true_iff.symm

theorem encodePart_iff {msg : IsoMessage} {f : Int} :
    (∃ part, encodePart msg f = .ok part) ↔
      ∃ defn, FIELDS f = some defn ∧ defn.accepts ((msg.fields.lookup f).getD []) = true := by
  constructor
  · rintro ⟨part, h⟩
    obtain ⟨defn, hdefn, hfield⟩ := encodePart_eq_ok h
    exact ⟨defn, hdefn, encodeField_iff.mp ⟨part, hfield⟩⟩
  · rintro ⟨defn, hdefn, haccepts⟩
    obtain ⟨part, hfield⟩ := encodeField_iff.mpr haccepts
    exact ⟨part, by rw [encodePart, hdefn]; exact hfield⟩

theorem mapM_iff {α β ε : Type} {g : α → Except ε β} {as : List α} :
    (∃ bs, as.mapM g = .ok bs) ↔ ∀ a ∈ as, ∃ b, g a = .ok b := by
  constructor
  · rintro ⟨bs, h⟩ a ha
    exact mapM_of_ok h ha
  · intro h
    induction as with
    | nil => exact ⟨[], rfl⟩
    | cons a as ih =>
      obtain ⟨b, hhead⟩ := h a (List.mem_cons_self ..)
      obtain ⟨bs, hrest⟩ := ih fun a' ha' => h a' (List.mem_cons_of_mem _ ha')
      exact ⟨b :: bs, by rw [List.mapM_cons, hhead, hrest]; rfl⟩

theorem fieldsToBitmap_iff {fields : List Int} :
    (∃ hex, fieldsToBitmap fields = .ok hex) ↔ ∀ f ∈ fields, 1 ≤ f ∧ f ≤ 64 := by
  constructor
  · rintro ⟨hex, h⟩ f hf
    obtain ⟨bits, hbits, -⟩ := fieldsToBitmap_eq_ok h
    have hset : f ∈ fieldsOf bits := (setBits_spec (by simp) hbits f).mpr (.inl hf)
    obtain ⟨hlow, hhigh, -⟩ := mem_fieldsOf.mp hset
    exact ⟨hlow, hhigh⟩
  · intro hrange
    obtain ⟨bits, hbits⟩ := setBits_of_range (List.replicate 64 false) hrange
    exact ⟨hexOf bits, by rw [fieldsToBitmap, hbits]; rfl⟩

/-- The encoder comes to a wire exactly when the bitmap and all the parts do. -/
theorem encodeMessage_iff_parts {msg : IsoMessage} :
    (∃ wire, encodeMessage msg = .ok wire) ↔
      (∃ bitmap, fieldsToBitmap (fieldNumbers msg.fields) = .ok bitmap) ∧
        ∃ parts, (fieldNumbers msg.fields).mapM (encodePart msg) = .ok parts := by
  constructor
  · rintro ⟨wire, h⟩
    obtain ⟨bitmap, parts, hbitmap, hparts, -⟩ := encodeMessage_eq_ok h
    exact ⟨⟨bitmap, hbitmap⟩, parts, hparts⟩
  · rintro ⟨⟨bitmap, hbitmap⟩, parts, hparts⟩
    exact ⟨_, by simp only [encodeMessage, hbitmap, hparts]; rfl⟩

theorem encodable_iff {msg : IsoMessage} :
    (∃ wire, encodeMessage msg = .ok wire) ↔ msg.Encodable := by
  rw [encodeMessage_iff_parts, fieldsToBitmap_iff, mapM_iff]
  constructor
  · rintro ⟨hrange, hparts⟩ f value hvalue
    have hf : f ∈ fieldNumbers msg.fields :=
      mem_fieldNumbers.mpr (Finmap.mem_iff.mpr ⟨value, hvalue⟩)
    obtain ⟨defn, hdefn, haccepts⟩ := encodePart_iff.mp (hparts f hf)
    rw [hvalue, Option.getD_some] at haccepts
    exact ⟨defn, hdefn, (hrange f hf).2, haccepts⟩
  · intro hencodable
    constructor
    · intro f hf
      obtain ⟨value, hvalue⟩ := Finmap.mem_iff.mp (mem_fieldNumbers.mp hf)
      obtain ⟨defn, hdefn, hle, -⟩ := hencodable f value hvalue
      exact ⟨field_pos hdefn, hle⟩
    · intro f hf
      obtain ⟨value, hvalue⟩ := Finmap.mem_iff.mp (mem_fieldNumbers.mp hf)
      obtain ⟨defn, hdefn, -, haccepts⟩ := hencodable f value hvalue
      rw [encodePart_iff, hvalue]
      exact ⟨defn, hdefn, haccepts⟩

/-- A field that is in no list, or a value that is too long for its prefix. -/
def IsoMessage.Refused (msg : IsoMessage) : Prop :=
  ∃ f value, msg.fields.lookup f = some value ∧
    ∀ defn, FIELDS f = some defn → defn.accepts value = false

/-- A numeric or fixed value that the encoder takes and cuts. -/
def IsoMessage.Cut (msg : IsoMessage) : Prop :=
  ∃ f value defn, msg.fields.lookup f = some value ∧ FIELDS f = some defn ∧
    defn.accepts value = true ∧ defn.represents value = false

/-- Field 70 is the only listed one behind the primary bitmap. -/
theorem field_beyond {f : Int} {defn : FieldDef} (h : FIELDS f = some defn) : f ≤ 64 ↔ f ≠ 70 := by
  have hall : ∀ row ∈ fieldTable, row.1 ≤ 64 ↔ row.1 ≠ 70 := by decide
  obtain ⟨before, after, htable, -⟩ := List.lookup_eq_some_iff.mp h
  exact hall (f, defn) (by simp [htable])

theorem FieldDef.accepts_of_represents {defn : FieldDef} {value : Text}
    (h : defn.represents value = true) : defn.accepts value = true := by
  unfold FieldDef.represents at h
  unfold FieldDef.accepts
  cases hkind : defn.kind <;> simp_all

theorem encodable_iff_not_refused {msg : IsoMessage} :
    msg.Encodable ↔ ¬msg.Refused ∧ 70 ∉ msg.fields := by
  constructor
  · intro hencodable
    constructor
    · rintro ⟨f, value, hvalue, hrefused⟩
      obtain ⟨defn, hdefn, -, haccepts⟩ := hencodable f value hvalue
      rw [hrefused defn hdefn] at haccepts
      cases haccepts
    · intro hmem
      obtain ⟨value, hvalue⟩ := Finmap.mem_iff.mp hmem
      obtain ⟨defn, -, hle, -⟩ := hencodable 70 value hvalue
      omega
  · rintro ⟨hnot, hmem⟩ f value hvalue
    by_contra hnone
    refine hnot ⟨f, value, hvalue, fun defn hdefn => ?_⟩
    rw [← Bool.not_eq_true]
    intro haccepts
    refine hnone ⟨defn, hdefn, (field_beyond hdefn).mpr ?_, haccepts⟩
    rintro rfl
    exact hmem (Finmap.mem_iff.mpr ⟨value, hvalue⟩)

theorem lossless_iff_not_cut {msg : IsoMessage} : msg.Lossless ↔ ¬msg.Refused ∧ ¬msg.Cut := by
  constructor
  · intro hlossless
    constructor
    · rintro ⟨f, value, hvalue, hrefused⟩
      obtain ⟨defn, hdefn, hrepresents⟩ := hlossless f value hvalue
      have haccepts := FieldDef.accepts_of_represents hrepresents
      rw [hrefused defn hdefn] at haccepts
      cases haccepts
    · rintro ⟨f, value, defn, hvalue, hdefn, -, hcut⟩
      obtain ⟨defn', hdefn', hrepresents⟩ := hlossless f value hvalue
      cases hdefn.symm.trans hdefn'
      rw [hcut] at hrepresents
      cases hrepresents
  · rintro ⟨hnot, hcut⟩ f value hvalue
    by_contra hnone
    refine hnot ⟨f, value, hvalue, fun defn hdefn => ?_⟩
    rw [← Bool.not_eq_true]
    intro haccepts
    refine hcut ⟨f, value, defn, hvalue, hdefn, haccepts, ?_⟩
    rw [← Bool.not_eq_true]
    exact fun hrepresents => hnone ⟨defn, hdefn, hrepresents⟩

/-- The encoder succeeds on a message exactly when its listed fields hold their values without loss,
if and only if a field is refused either way, or the message has field 70 just when it has a value
that is cut. -/
theorem encodeMessage_lossless_iff (msg : IsoMessage) :
    ((∃ wire, encodeMessage msg = .ok wire) ↔ msg.Lossless) ↔
      msg.Refused ∨ (70 ∈ msg.fields ↔ msg.Cut) := by
  rw [encodable_iff, encodable_iff_not_refused, lossless_iff_not_cut]
  tauto

/-- A request for more than the twelve digits of field 4 can say. -/
def longAmount : IsoMessage := ⟨utf16 "0200", Finmap.singleton 4 (utf16 "1234567890123")⟩

/-- A network management request with its information code. -/
def signOn : IsoMessage := ⟨utf16 "0800", Finmap.singleton 70 (utf16 "001")⟩

/-- An amount loses its first digit, and a listed field whose value it can hold is refused. -/
theorem encodeMessage_not_lossless :
    ¬ ((∃ wire, encodeMessage longAmount = .ok wire) ↔ longAmount.Lossless) ∧
      ¬ ((∃ wire, encodeMessage signOn = .ok wire) ↔ signOn.Lossless) := by
  have hlookup : ∀ (f g : Int) (text value : Text),
      (Finmap.singleton f text : FieldValues).lookup g = some value → g = f ∧ value = text := by
    intro f g text value hvalue
    have hg : g = f := by
      by_contra hne
      rw [Finmap.lookup_eq_none.mpr (by simpa using hne)] at hvalue
      cases hvalue
    subst hg
    rw [Finmap.lookup_singleton_eq] at hvalue
    cases hvalue
    exact ⟨rfl, rfl⟩
  constructor
  · intro hiff
    have hencodable : longAmount.Encodable := by
      intro f value hvalue
      obtain ⟨rfl, rfl⟩ := hlookup _ _ _ _ hvalue
      exact ⟨⟨4, .numeric, 12⟩, by decide, by decide, by decide⟩
    obtain ⟨defn, hdefn, hrepresents⟩ := hiff.mp (encodable_iff.mpr hencodable) 4 _
      Finmap.lookup_singleton_eq
    cases (show some (⟨4, .numeric, 12⟩ : FieldDef) = some defn from hdefn)
    exact absurd hrepresents (by decide)
  · intro hiff
    have hlossless : signOn.Lossless := by
      intro f value hvalue
      obtain ⟨rfl, rfl⟩ := hlookup _ _ _ _ hvalue
      exact ⟨⟨70, .numeric, 3⟩, by decide, by decide⟩
    obtain ⟨wire, h⟩ := hiff.mpr hlossless
    obtain ⟨defn, -, hle, -⟩ := encodable_iff.mp ⟨wire, h⟩ 70 (utf16 "001")
      Finmap.lookup_singleton_eq
    exact absurd hle (by decide)

end AtmXfs.Iso8583
