import AtmXfs.Iso8583.Bitmap
import Mathlib.Data.Finmap
import Mathlib.Data.Finset.Sort

namespace AtmXfs.Iso8583

open Js

inductive FieldKind where
  | fixed | llvar | lllvar | numeric
  deriving DecidableEq

structure FieldDef where
  field : Nat
  kind : FieldKind
  length : Nat
  deriving DecidableEq

def fieldTable : List (Int × FieldDef) :=
  [(2, ⟨2, .llvar, 19⟩),
   (3, ⟨3, .numeric, 6⟩),
   (4, ⟨4, .numeric, 12⟩),
   (7, ⟨7, .numeric, 10⟩),
   (11, ⟨11, .numeric, 6⟩),
   (12, ⟨12, .numeric, 6⟩),
   (13, ⟨13, .numeric, 4⟩),
   (14, ⟨14, .numeric, 4⟩),
   (22, ⟨22, .numeric, 3⟩),
   (37, ⟨37, .fixed, 12⟩),
   (38, ⟨38, .fixed, 6⟩),
   (39, ⟨39, .fixed, 2⟩),
   (41, ⟨41, .fixed, 8⟩),
   (42, ⟨42, .fixed, 15⟩),
   (49, ⟨49, .numeric, 3⟩),
   (52, ⟨52, .fixed, 16⟩),
   (54, ⟨54, .lllvar, 120⟩),
   (70, ⟨70, .numeric, 3⟩)]

def FIELDS (f : Int) : Option FieldDef := fieldTable.lookup f

abbrev FieldValues := Finmap fun _ : Int => Text

structure IsoMessage where
  mti : Text
  fields : FieldValues
  deriving DecidableEq

/-- A value behind its length in `digits` digits. -/
def encodeVar (defn : FieldDef) (digits : Nat) (raw : Text) : Except String Text :=
  let field := defn.field
  if raw.length > defn.length then .error s!"field {field} value too long"
  else .ok ((decimal raw.length).padStart digits 48 ++ raw)

def encodeField (defn : FieldDef) (raw : Text) : Except String Text :=
  match defn.kind with
  | .fixed => .ok ((raw.padEnd defn.length 32).slice (some 0) (some defn.length))
  | .numeric => .ok ((raw.digitsOnly.padStart defn.length 48).sliceFrom (some (-defn.length)))
  | .llvar => encodeVar defn 2 raw
  | .lllvar => encodeVar defn 3 raw

/-- `a + b`, where `none` stands for `NaN`. -/
def add (a b : Option Int) : Option Int := do return (← a) + (← b)

@[simp] theorem add_some (a b : Int) : add (some a) (some b) = some (a + b) := rfl

def decodeVar (digits : Int) (wire : Text) (start : Option Int) : Text × Option Int :=
  let valStart := add start (some digits)
  let len := parseInt (wire.slice start valStart)
  (wire.slice valStart (add valStart len), add valStart len)

def decodeField (defn : FieldDef) (wire : Text) (start : Option Int) : Text × Option Int :=
  let stop := add start (some defn.length)
  match defn.kind with
  | .fixed => ((wire.slice start stop).trimEnd, stop)
  | .numeric => (wire.slice start stop, stop)
  | .llvar => decodeVar 2 wire start
  | .lllvar => decodeVar 3 wire start

def encodePart (msg : IsoMessage) (f : Int) : Except String Text :=
  match FIELDS f with
  | none => .error s!"unknown field {f}"
  | some defn => encodeField defn ((msg.fields.lookup f).getD [])

def fieldNumbers (fields : FieldValues) : List Int := fields.keys.sort

def encodeMessage (msg : IsoMessage) : Except String Text := do
  let bitmap ← fieldsToBitmap (fieldNumbers msg.fields)
  let parts ← (fieldNumbers msg.fields).mapM (encodePart msg)
  return ([msg.mti, bitmap] ++ parts).flatten

/-- One round of the loop over the fields: the values so far and the cursor. -/
def decodePart (wire : Text) (state : FieldValues × Option Int) (f : Int) :
    Except String (FieldValues × Option Int) :=
  match FIELDS f with
  | none => .error s!"unknown field {f}"
  | some defn =>
    let (value, next) := decodeField defn wire state.2
    .ok (state.1.insert f value, next)

def decodeMessage (wire : Text) : Except String IsoMessage := do
  if wire.length < 20 then throw "message too short (need MTI + bitmap)"
  let mti := wire.slice (some 0) (some 4)
  let fields ← bitmapToFields (wire.slice (some 4) (some 20))
  let (out, cursor) ← fields.foldlM (decodePart wire) (∅, some 20)
  if cursor ≠ some (wire.length : Int) then
    let parsed := cursor.elim "NaN" toString
    let got := wire.length
    throw s!"trailing bytes: parsed {parsed}, got {got}"
  return ⟨mti, out⟩

/-- The values the encoder keeps as they are. -/
def FieldDef.canonical (defn : FieldDef) (value : Text) : Bool :=
  match defn.kind with
  | .fixed => value.length ≤ defn.length ∧ value.trimEnd = value
  | .numeric => value.length = defn.length ∧ value.all isDigitUnit
  | .llvar | .lllvar => value.length ≤ defn.length

def IsoMessage.Canonical (msg : IsoMessage) : Prop :=
  ∀ f defn value, FIELDS f = some defn → msg.fields.lookup f = some value →
    defn.canonical value = true

/-- What is left of a value once it was written: a numeric field holds the last digits of it, a
fixed field its first characters without the white space at the end. -/
def FieldDef.kept (defn : FieldDef) (value : Text) : Text :=
  match defn.kind with
  | .fixed => Text.trimEnd ((value.padEnd defn.length 32).take defn.length)
  | .numeric => (value.digitsOnly.padStart defn.length 48).sliceFrom (some (-defn.length))
  | .llvar | .lllvar => value

def keptValue (fields : FieldValues) (f : Int) : Text :=
  (FIELDS f).elim [] fun defn => defn.kept ((fields.lookup f).getD [])

def IsoMessage.kept (msg : IsoMessage) : IsoMessage :=
  ⟨msg.mti, (fieldNumbers msg.fields).foldl (fun out f => out.insert f (keptValue msg.fields f)) ∅⟩

/-- The length of every value fits the digits of its prefix. -/
theorem prefix_fits {f : Int} {defn : FieldDef} (h : FIELDS f = some defn) :
    (defn.kind = .llvar → defn.length < 10 ^ 2) ∧ (defn.kind = .lllvar → defn.length < 10 ^ 3) := by
  have hall : ∀ row ∈ fieldTable, (row.2.kind = .llvar → row.2.length < 10 ^ 2) ∧
      (row.2.kind = .lllvar → row.2.length < 10 ^ 3) := by decide
  obtain ⟨before, after, htable, -⟩ := List.lookup_eq_some_iff.mp h
  exact hall (f, defn) (by simp [htable])

theorem length_pos {f : Int} {defn : FieldDef} (h : FIELDS f = some defn) : 0 < defn.length := by
  have hall : ∀ row ∈ fieldTable, 0 < row.2.length := by decide
  obtain ⟨before, after, htable, -⟩ := List.lookup_eq_some_iff.mp h
  exact hall (f, defn) (by simp [htable])

theorem decodeVar_encodeVar {defn : FieldDef} {digits : Nat} {value part : Text}
    (hdigits : 0 < digits) (hfits : defn.length < 10 ^ digits)
    (h : encodeVar defn digits value = .ok part) (pre post : Text) :
    decodeVar digits (pre ++ part ++ post) (some pre.length) =
      (value, some ((pre ++ part).length : Int)) := by
  rw [encodeVar] at h
  split_ifs at h with hlong
  cases h
  have hlength := length_padStart hdigits ((Nat.le_of_not_lt hlong).trans_lt hfits)
  have hlen : (pre ++ ((decimal value.length).padStart digits 48 ++ value) ++ post).slice
      (some pre.length) (some (pre.length + digits)) =
        (decimal value.length).padStart digits 48 := by
    rw [← List.append_assoc, List.append_assoc _ value]
    exact slice_append pre _ _ hlength
  have hvalue : (pre ++ ((decimal value.length).padStart digits 48 ++ value) ++ post).slice
      (some (pre.length + digits)) (some (pre.length + digits + value.length)) = value := by
    have hstart : (pre.length + digits : Int) =
        (pre ++ (decimal value.length).padStart digits 48).length := by simp [hlength]
    rw [← List.append_assoc, hstart]
    exact slice_append _ value post rfl
  simp only [decodeVar, add_some]
  rw [hlen, parseInt_padStart hdigits, add_some, hvalue]
  simp [hlength, add_assoc]

theorem encodeField_fixed {defn : FieldDef} {value : Text} (hkind : defn.kind = .fixed)
    (hlength : value.length ≤ defn.length) :
    encodeField defn value = .ok (value.padEnd defn.length 32) := by
  rw [encodeField, hkind]
  simp only
  rw [slice_zero _ (length_padEnd hlength 32)]

theorem encodeField_numeric {defn : FieldDef} {value : Text} (hkind : defn.kind = .numeric)
    (hlength : value.length = defn.length) (hdigits : ∀ u ∈ value, isDigitUnit u = true) :
    encodeField defn value = .ok value := by
  rw [encodeField, hkind]
  simp only
  rw [digitsOnly_eq hdigits, padStart_eq hlength.ge, sliceFrom_neg _ hlength]

theorem take_padEnd (value : Text) (n : Nat) :
    ((value.padEnd n 32).slice (some 0) (some n)) = (value.padEnd n 32).take n := by
  simpa using slice_drop_take (value.padEnd n 32) 0 n

/-- A canonical value is kept as it is. -/
theorem kept_of_canonical {defn : FieldDef} {value : Text} (h : defn.canonical value = true) :
    defn.kept value = value := by
  unfold FieldDef.canonical at h
  unfold FieldDef.kept
  cases hkind : defn.kind with
  | fixed =>
    simp only [hkind, decide_eq_true_eq] at h ⊢
    rw [List.take_of_length_le (length_padEnd h.1 32).le, trimEnd_padEnd, h.2]
  | numeric =>
    simp only [hkind, decide_eq_true_eq] at h ⊢
    obtain ⟨hlength, hdigits⟩ := h
    rw [digitsOnly_eq (List.all_eq_true.mp hdigits), padStart_eq hlength.ge,
      sliceFrom_neg _ hlength]
  | llvar | lllvar => rfl

/-- The decoder reads what is kept of the value and stops behind it. -/
theorem decodeField_encodeField {f : Int} {defn : FieldDef} {value part : Text}
    (hdefn : FIELDS f = some defn) (h : encodeField defn value = .ok part) (pre post : Text) :
    decodeField defn (pre ++ part ++ post) (some pre.length) =
      (defn.kept value, some ((pre ++ part).length : Int)) := by
  unfold FieldDef.kept
  cases hkind : defn.kind with
  | fixed =>
    simp only [encodeField, hkind, take_padEnd] at h
    have hlength : ((value.padEnd defn.length 32).take defn.length).length = defn.length := by
      rw [List.length_take, Text.padEnd, List.length_rightpad]
      exact min_eq_left (le_max_left ..)
    cases h
    simp only [decodeField, hkind, add_some]
    rw [slice_append _ _ _ hlength, List.length_append, hlength]
    rfl
  | numeric =>
    simp only [encodeField, hkind] at h
    have hlong : defn.length ≤ (value.digitsOnly.padStart defn.length 48).length := by
      rw [Text.padStart, List.length_leftpad]
      exact le_max_left ..
    have hlength := length_sliceFrom_neg (length_pos hdefn) hlong
    cases h
    simp only [decodeField, hkind, add_some]
    rw [slice_append _ _ _ hlength, List.length_append, hlength]
    rfl
  | llvar =>
    simp only [encodeField, hkind] at h
    simp only [decodeField, hkind]
    exact decodeVar_encodeVar (by decide) ((prefix_fits hdefn).1 hkind) h pre post
  | lllvar =>
    simp only [encodeField, hkind] at h
    simp only [decodeField, hkind]
    exact decodeVar_encodeVar (by decide) ((prefix_fits hdefn).2 hkind) h pre post

theorem encodePart_eq_ok {msg : IsoMessage} {f : Int} {part : Text}
    (h : encodePart msg f = .ok part) :
    ∃ defn, FIELDS f = some defn ∧ encodeField defn ((msg.fields.lookup f).getD []) = .ok part := by
  unfold encodePart at h
  cases hdefn : FIELDS f with
  | none => simp [hdefn] at h
  | some defn => exact ⟨defn, rfl, by simpa [hdefn] using h⟩

theorem decodePart_encodePart {msg : IsoMessage} {f : Int} {part : Text}
    (h : encodePart msg f = .ok part) (pre post : Text) (out : FieldValues) :
    decodePart (pre ++ part ++ post) (out, some pre.length) f =
      .ok (out.insert f (keptValue msg.fields f), some ((pre ++ part).length : Int)) := by
  obtain ⟨defn, hdefn, hfield⟩ := encodePart_eq_ok h
  have hread := decodeField_encodeField hdefn hfield pre post
  simp only [decodePart, keptValue, hdefn, hread, Option.elim_some]

theorem mapM_cons_eq_ok {α β ε : Type} {g : α → Except ε β} {a : α} {as : List α} {bs : List β}
    (h : (a :: as).mapM g = .ok bs) :
    ∃ b rest, g a = .ok b ∧ as.mapM g = .ok rest ∧ bs = b :: rest := by
  rw [List.mapM_cons] at h
  cases hhead : g a with
  | error e =>
    rw [hhead] at h
    cases h
  | ok b =>
    cases hrest : as.mapM g with
    | error e =>
      rw [hhead, hrest] at h
      cases h
    | ok rest =>
      rw [hhead, hrest] at h
      cases h
      exact ⟨b, rest, rfl, rfl, rfl⟩

theorem foldlM_cons_eq_ok {α β ε : Type} {g : β → α → Except ε β} {a : α} {as : List α} {b c : β}
    (h : (a :: as).foldlM g b = .ok c) : ∃ next, g b a = .ok next ∧ as.foldlM g next = .ok c := by
  rw [List.foldlM_cons] at h
  cases hhead : g b a with
  | error e =>
    rw [hhead] at h
    cases h
  | ok next =>
    rw [hhead] at h
    exact ⟨next, rfl, h⟩

/-- The loop of the decoder over the parts that the encoder made of the same fields. -/
theorem decodeParts_encodeParts {msg : IsoMessage} {fields : List Int} {parts : List Text}
    (h : fields.mapM (encodePart msg) = .ok parts) (pre : Text) (out : FieldValues) :
    fields.foldlM (decodePart (pre ++ parts.flatten)) (out, some (pre.length : Int)) =
      .ok (fields.foldl (fun out f => out.insert f (keptValue msg.fields f)) out,
        some ((pre ++ parts.flatten).length : Int)) := by
  induction fields generalizing pre out parts with
  | nil =>
    cases h
    simp
    rfl
  | cons f fields ih =>
    obtain ⟨part, rest, hpart, hrest, rfl⟩ := mapM_cons_eq_ok h
    have hread := decodePart_encodePart hpart pre rest.flatten out
    have hloop := ih hrest (pre ++ part) (out.insert f (keptValue msg.fields f))
    rw [List.flatten_cons, ← List.append_assoc, List.foldlM_cons, hread, List.foldl_cons]
    exact hloop

theorem lookup_foldl_insert (fields : List Int) (value : Int → Text) (out : FieldValues) (g : Int) :
    (fields.foldl (fun out f => out.insert f (value f)) out).lookup g =
      if g ∈ fields then some (value g) else out.lookup g := by
  induction fields generalizing out with
  | nil => simp
  | cons f fields ih =>
    rw [List.foldl_cons, ih]
    by_cases hgf : g = f
    · subst hgf
      simp
    · simp [hgf, Finmap.lookup_insert_of_ne _ hgf]

@[simp] theorem mem_fieldNumbers {fields : FieldValues} {f : Int} :
    f ∈ fieldNumbers fields ↔ f ∈ fields := by
  rw [fieldNumbers, Finset.mem_sort, Finmap.mem_keys]

theorem fieldNumbers_ascending (fields : FieldValues) :
    (fieldNumbers fields).Pairwise (· < ·) :=
  (Finset.sortedLT_sort _).pairwise

/-- Setting every value of a map anew gives the map. -/
theorem foldl_insert_fieldNumbers (fields : FieldValues) :
    (fieldNumbers fields).foldl (fun out f => out.insert f ((fields.lookup f).getD [])) ∅ =
      fields := by
  apply Finmap.ext_lookup
  intro g
  rw [lookup_foldl_insert]
  by_cases hg : g ∈ fields
  · obtain ⟨value, hvalue⟩ := Finmap.mem_iff.mp hg
    simp [hg, hvalue]
  · simp [hg, Finmap.lookup_eq_none.mpr hg]

theorem mapM_of_ok {α β ε : Type} {g : α → Except ε β} {as : List α} {bs : List β}
    (h : as.mapM g = .ok bs) {a : α} (ha : a ∈ as) : ∃ b, g a = .ok b := by
  induction as generalizing bs with
  | nil => cases ha
  | cons head as ih =>
    obtain ⟨b, rest, hhead, hrest, -⟩ := mapM_cons_eq_ok h
    rcases List.mem_cons.mp ha with rfl | ha
    · exact ⟨b, hhead⟩
    · exact ih hrest ha

theorem known_of_encoded {msg : IsoMessage} {fields : List Int} {parts : List Text}
    (h : fields.mapM (encodePart msg) = .ok parts) {f : Int} (hf : f ∈ fields) :
    ∃ defn, FIELDS f = some defn := by
  obtain ⟨part, hpart⟩ := mapM_of_ok h hf
  obtain ⟨defn, hdefn, -⟩ := encodePart_eq_ok hpart
  exact ⟨defn, hdefn⟩

/-- What the encoder wrote: the type, the bitmap of the fields in ascending order, their parts. -/
theorem encodeMessage_eq_ok {msg : IsoMessage} {wire : Text} (h : encodeMessage msg = .ok wire) :
    ∃ bitmap parts, fieldsToBitmap (fieldNumbers msg.fields) = .ok bitmap ∧
      (fieldNumbers msg.fields).mapM (encodePart msg) = .ok parts ∧
      wire = msg.mti ++ bitmap ++ parts.flatten := by
  simp only [encodeMessage] at h
  cases hbitmap : fieldsToBitmap (fieldNumbers msg.fields) with
  | error e =>
    rw [hbitmap] at h
    cases h
  | ok bitmap =>
    cases hparts : (fieldNumbers msg.fields).mapM (encodePart msg) with
    | error e =>
      rw [hbitmap, hparts] at h
      cases h
    | ok parts =>
      rw [hbitmap, hparts] at h
      cases h
      exact ⟨bitmap, parts, rfl, rfl, by simp⟩

/-- What the decoder makes of a message once it was written. -/
theorem decodeMessage_kept {msg : IsoMessage} {wire : Text} (hmti : msg.mti.length = 4)
    (h : encodeMessage msg = .ok wire) : decodeMessage wire = .ok msg.kept := by
  obtain ⟨bitmap, parts, hbitmap, hparts, hwire⟩ := encodeMessage_eq_ok h
  have hlength := length_fieldsToBitmap hbitmap
  have hhead : (msg.mti ++ bitmap).length = 20 := by rw [List.length_append, hmti, hlength]
  have hlong : ¬ wire.length < 20 := by
    rw [hwire, List.length_append, hhead]
    omega
  have hmti' : wire.slice (some 0) (some 4) = msg.mti := by
    have := slice_append [] msg.mti (bitmap ++ parts.flatten) hmti
    simpa [hwire] using this
  have hbitmap' : wire.slice (some 4) (some 20) = bitmap := by
    have := slice_append msg.mti bitmap parts.flatten hlength
    simpa [hwire, hmti] using this
  have hfields : bitmapToFields bitmap = .ok (fieldNumbers msg.fields) :=
    bitmapToFields_fieldsToBitmap (fieldNumbers_ascending _) hbitmap
  have hloop := decodeParts_encodeParts hparts (msg.mti ++ bitmap) ∅
  rw [← hwire, hhead, Nat.cast_ofNat] at hloop
  rw [decodeMessage, if_neg hlong, hbitmap', hmti', hfields]
  change (List.foldlM (decodePart wire) (∅, some 20) (fieldNumbers msg.fields) >>= _) = _
  rw [hloop]
  exact if_neg fun hne => hne rfl

/-- A message of canonical values comes back as it was. -/
theorem decodeMessage_encodeMessage {msg : IsoMessage} {wire : Text} (hmti : msg.mti.length = 4)
    (hcanonical : msg.Canonical) (h : encodeMessage msg = .ok wire) :
    decodeMessage wire = .ok msg := by
  obtain ⟨bitmap, parts, -, hparts, -⟩ := encodeMessage_eq_ok h
  have hkept : msg.kept = msg := by
    have hfields : ∀ f ∈ fieldNumbers msg.fields,
        keptValue msg.fields f = (msg.fields.lookup f).getD [] := by
      intro f hf
      obtain ⟨value, hvalue⟩ := Finmap.mem_iff.mp (mem_fieldNumbers.mp hf)
      obtain ⟨defn, hdefn⟩ := known_of_encoded hparts hf
      rw [keptValue, hdefn, hvalue]
      exact kept_of_canonical (hcanonical f defn value hdefn hvalue)
    have hsame : msg.kept.fields = msg.fields := by
      conv_rhs => rw [← foldl_insert_fieldNumbers msg.fields]
      apply List.foldl_ext
      intro out f hf
      rw [hfields f hf]
    exact congrArg (IsoMessage.mk msg.mti) hsame
  rw [decodeMessage_kept hmti h, hkept]

/-- A withdrawal request with a card number, an amount, a terminal and a currency. -/
def sampleFields : List (Sigma fun _ : Int => Text) :=
  [⟨2, utf16 "4580123456789012"⟩, ⟨3, utf16 "011000"⟩, ⟨4, utf16 "000000500000"⟩,
    ⟨41, utf16 "ATM 01"⟩, ⟨49, utf16 "360"⟩]

def sampleRequest : IsoMessage := ⟨utf16 "0200", sampleFields.toFinmap⟩

theorem sampleRequest_canonical : sampleRequest.Canonical := by
  intro f defn value hdefn hvalue
  have hall : ∀ entry ∈ sampleFields,
      ((FIELDS entry.1).any fun defn => defn.canonical entry.2) = true := by decide
  rw [sampleRequest, Finmap.dlookup_list_toFinmap] at hvalue
  simpa [hdefn] using hall ⟨f, value⟩ (List.of_mem_dlookup hvalue)

theorem sampleRequest_wire : encodeMessage sampleRequest =
    .ok (utf16 "02007000000000808000164580123456789012011000000000500000ATM 01  360") := by
  have hkeys : sampleRequest.fields.keys = [2, 3, 4, 41, 49].toFinset := by decide +kernel
  have hsort : fieldNumbers sampleRequest.fields = [2, 3, 4, 41, 49] := by
    rw [fieldNumbers, hkeys]
    exact (List.toFinset_sort _ (by decide)).mpr (by decide)
  simp only [encodeMessage, hsort]
  decide +kernel

theorem sampleRequest_comes_back : decodeMessage
    (utf16 "02007000000000808000164580123456789012011000000000500000ATM 01  360") =
      .ok sampleRequest :=
  decodeMessage_encodeMessage (by decide) sampleRequest_canonical sampleRequest_wire

end AtmXfs.Iso8583
