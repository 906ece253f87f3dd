import AtmXfs.Iso8583.Codec

namespace AtmXfs.Iso8583

open Js

/-- The `n` units of the wire from `start` on. -/
def window (wire : Text) (start n : Nat) : Text := (wire.drop start).take n

/-- Where a value behind a length of `digits` characters stops. -/
def varStop (digits : Int) (wire : Text) (start : Option Int) : Option Int :=
  let valStart := add start (some digits)
  add valStart (parseInt (wire.slice start valStart))

def fieldStop (defn : FieldDef) (wire : Text) (start : Option Int) : Option Int :=
  match defn.kind with
  | .fixed | .numeric => add start (some defn.length)
  | .llvar => varStop 2 wire start
  | .lllvar => varStop 3 wire start

/-- The fields are known and stop where the wire does. -/
def addsUpFrom (wire : Text) : Option Int → List Int → Bool
  | cursor, [] => cursor = some (wire.length : Int)
  | cursor, f :: fields =>
    (FIELDS f).any fun defn => addsUpFrom wire (fieldStop defn wire cursor) fields

/-- The fields that the wire's bitmap lists. -/
def listed (wire : Text) : List Int :=
  (bitmapToFields (wire.slice (some 4) (some 20))).toOption.getD []

def addsUp (wire : Text) : Bool := 20 ≤ wire.length ∧ addsUpFrom wire (some 20) (listed wire)

/-- A length of `digits` digits that the field has room for. -/
def tidyVar (defn : FieldDef) (digits : Nat) (wire : Text) (start : Nat) : Bool :=
  (window wire start digits).length = digits ∧ (window wire start digits).all isDigitUnit ∧
    digitsNumber (window wire start digits) ≤ defn.length

/-- White space at the end of a fixed field is padding, and a numeric field is all digits. -/
def tidyField (defn : FieldDef) (wire : Text) (start : Nat) : Bool :=
  match defn.kind with
  | .fixed => ((window wire start defn.length).rtakeWhile isSpaceUnit).all (· == 32)
  | .numeric => (window wire start defn.length).all isDigitUnit
  | .llvar => tidyVar defn 2 wire start
  | .lllvar => tidyVar defn 3 wire start

/-- The units that a tidy field takes. -/
def fieldSize (defn : FieldDef) (wire : Text) (start : Nat) : Nat :=
  match defn.kind with
  | .fixed | .numeric => defn.length
  | .llvar => 2 + digitsNumber (window wire start 2)
  | .lllvar => 3 + digitsNumber (window wire start 3)

def tidyFrom (wire : Text) : Nat → List Int → Bool
  | _, [] => true
  | start, f :: fields => (FIELDS f).any fun defn =>
    tidyField defn wire start && tidyFrom wire (start + fieldSize defn wire start) fields

/-- The bitmap is in upper-case hex and the fields are as the encoder writes them. -/
def tidy (wire : Text) : Bool :=
  (window wire 4 16).all isHexUnit ∧ tidyFrom wire 20 (listed wire)

theorem decodeField_stop (defn : FieldDef) (wire : Text) (start : Option Int) :
    (decodeField defn wire start).2 = fieldStop defn wire start := by
  rw [decodeField, fieldStop]
  cases defn.kind <;> rfl

theorem decodePart_ok {wire : Text} {state state' : FieldValues × Option Int} {f : Int}
    (h : decodePart wire state f = .ok state') :
    ∃ defn, FIELDS f = some defn ∧
      state' = (state.1.insert f (decodeField defn wire state.2).1,
        fieldStop defn wire state.2) := by
  unfold decodePart at h
  cases hdefn : FIELDS f with
  | none => simp [hdefn] at h
  | some defn =>
    simp only [hdefn] at h
    cases h
    exact ⟨defn, rfl, by rw [decodeField_stop]⟩

theorem decodePart_of_known {wire : Text} {state : FieldValues × Option Int} {f : Int}
    {defn : FieldDef} (hdefn : FIELDS f = some defn) :
    decodePart wire state f = .ok (state.1.insert f (decodeField defn wire state.2).1,
      fieldStop defn wire state.2) := by
  simp only [decodePart, hdefn, decodeField_stop]

/-- The loop of the decoder comes to the end of the wire exactly when the fields add up. -/
theorem addsUpFrom_iff {wire : Text} {fields : List Int} {cursor : Option Int}
    (out : FieldValues) : addsUpFrom wire cursor fields = true ↔
      ∃ out', fields.foldlM (decodePart wire) (out, cursor) =
        .ok (out', some (wire.length : Int)) := by
  induction fields generalizing cursor out with
  | nil =>
    constructor
    · intro h
      have hcursor : cursor = some (wire.length : Int) := by simpa [addsUpFrom] using h
      exact ⟨out, by rw [hcursor]; rfl⟩
    · rintro ⟨out', h⟩
      cases h
      simp [addsUpFrom]
  | cons f fields ih =>
    cases hdefn : FIELDS f with
    | none =>
      have hstep : decodePart wire (out, cursor) f = .error s!"unknown field {f}" := by
        simp only [decodePart, hdefn]
      simp only [addsUpFrom, hdefn, Option.any_none, Bool.false_eq_true, false_iff]
      rintro ⟨out', h⟩
      rw [List.foldlM_cons, hstep] at h
      cases h
    | some defn =>
      rw [List.foldlM_cons, decodePart_of_known hdefn]
      simp only [addsUpFrom, hdefn, Option.any_some]
      exact ih _

/-- What the decoder accepts. -/
theorem decodeMessage_eq_ok {wire : Text} {msg : IsoMessage} :
    decodeMessage wire = .ok msg ↔ 20 ≤ wire.length ∧
      bitmapToFields (wire.slice (some 4) (some 20)) = .ok (listed wire) ∧
      (listed wire).foldlM (decodePart wire) (∅, some 20) =
        .ok (msg.fields, some (wire.length : Int)) ∧
      msg.mti = wire.slice (some 0) (some 4) := by
  have hslice : (wire.slice (some 4) (some 20)) = window wire 4 16 :=
    slice_drop_take wire 4 16
  by_cases hlong : wire.length < 20
  · have hthrow : decodeMessage wire = .error "message too short (need MTI + bitmap)" := by
      rw [decodeMessage, if_pos hlong]
      rfl
    constructor
    · intro h
      rw [hthrow] at h
      cases h
    · intro h
      exact absurd h.1 (Nat.not_le.mpr hlong)
  · have hlength : (wire.slice (some 4) (some 20)).length = 16 := by
      rw [hslice, window, List.length_take, List.length_drop]
      omega
    have hfields : bitmapToFields (wire.slice (some 4) (some 20)) = .ok (listed wire) := by
      rw [listed, bitmapToFields, if_neg (not_not.mpr hlength)]
      rfl
    rw [decodeMessage, if_neg hlong, hfields]
    change ((listed wire).foldlM (decodePart wire) (∅, some 20) >>= _) = _ ↔ _
    cases hloop : (listed wire).foldlM (decodePart wire) (∅, some 20) with
    | error e =>
      constructor
      · intro h
        cases h
      · rintro ⟨-, -, h, -⟩
        cases h
    | ok state =>
      obtain ⟨out, cursor⟩ := state
      by_cases hcursor : cursor = some (wire.length : Int)
      · subst hcursor
        constructor
        · intro h
          cases (if_neg (fun hne => hne rfl)).symm.trans h
          exact ⟨Nat.le_of_not_lt hlong, rfl, rfl, rfl⟩
        · rintro ⟨-, -, hstate, hmti⟩
          cases hstate
          obtain ⟨mti, fields⟩ := msg
          cases hmti
          exact if_neg fun hne => hne rfl
      · constructor
        · intro h
          cases (if_pos hcursor).symm.trans h
        · rintro ⟨-, -, hstate, -⟩
          cases hstate
          exact absurd rfl hcursor

theorem length_window {wire : Text} {start n : Nat} (h : start + n ≤ wire.length) :
    (window wire start n).length = n := by
  rw [window, List.length_take, List.length_drop]
  omega

theorem window_append (pre mid post : Text) {n : Nat} (hn : mid.length = n) :
    window (pre ++ mid ++ post) pre.length n = mid := by
  rw [window, List.append_assoc, List.drop_left, ← hn, List.take_left]

theorem window_split (wire : Text) (start m n : Nat) :
    window wire start (m + n) = window wire start m ++ window wire (start + m) n := by
  rw [window, window, window, List.take_add, List.drop_drop]

theorem drop_window (wire : Text) (start n : Nat) :
    wire.drop start = window wire start n ++ wire.drop (start + n) := by
  rw [window, ← List.drop_drop, List.take_append_drop]

theorem parseInt_tidyVar {defn : FieldDef} {digits start : Nat} {wire : Text} (hpos : 0 < digits)
    (h : tidyVar defn digits wire start = true) :
    parseInt (window wire start digits) = some (digitsNumber (window wire start digits) : Int) := by
  obtain ⟨hlength, hdigits, -⟩ := of_decide_eq_true h
  refine parseInt_digits ?_ (List.all_eq_true.mp hdigits)
  intro hnil
  rw [hnil, List.length_nil] at hlength
  omega

theorem varStop_of_tidy {defn : FieldDef} {digits start : Nat} {wire : Text} (hpos : 0 < digits)
    (h : tidyVar defn digits wire start = true) :
    varStop digits wire (some start) =
      some ((start + (digits + digitsNumber (window wire start digits)) : Nat) : Int) := by
  have hlen := parseInt_tidyVar hpos h
  rw [varStop]
  simp only [add_some, slice_drop_take]
  rw [← window, hlen, add_some]
  push_cast
  rw [add_assoc]

theorem fieldStop_of_tidy {defn : FieldDef} {wire : Text} {start : Nat}
    (h : tidyField defn wire start = true) :
    fieldStop defn wire (some start) = some ((start + fieldSize defn wire start : Nat) : Int) := by
  unfold tidyField at h
  unfold fieldStop fieldSize
  cases hkind : defn.kind with
  | fixed | numeric =>
    simp
  | llvar =>
    simp only [hkind] at h
    exact varStop_of_tidy (by decide) h
  | lllvar =>
    simp only [hkind] at h
    exact varStop_of_tidy (by decide) h

/-- A tidy length and its value are written back. -/
theorem encodeVar_of_tidy {defn : FieldDef} {digits start : Nat} {wire : Text} (hpos : 0 < digits)
    (h : tidyVar defn digits wire start = true)
    (hfits : start + (digits + digitsNumber (window wire start digits)) ≤ wire.length) :
    encodeVar defn digits (decodeVar digits wire (some start)).1 =
      .ok (window wire start (digits + digitsNumber (window wire start digits))) := by
  have hlen := parseInt_tidyVar hpos h
  obtain ⟨hlength, hdigits, hle⟩ := of_decide_eq_true h
  have hvalue : (decodeVar digits wire (some start)).1 =
      window wire (start + digits) (digitsNumber (window wire start digits)) := by
    have hcast : (start + digits : Int) = ((start + digits : Nat) : Int) := by push_cast; rfl
    rw [decodeVar]
    simp only [add_some, slice_drop_take]
    rw [← window, hlen, add_some, hcast, slice_drop_take]
    rfl
  have hsize : (window wire (start + digits) (digitsNumber (window wire start digits))).length =
      digitsNumber (window wire start digits) := length_window (by omega)
  rw [hvalue, encodeVar, hsize, if_neg (Nat.not_lt.mpr hle), window_split,
    padStart_digitsNumber hpos hlength (List.all_eq_true.mp hdigits)]

/-- What the decoder reads from a tidy field is written back as it stood. -/
theorem encodeField_of_tidy {defn : FieldDef} {wire : Text} {start : Nat}
    (h : tidyField defn wire start = true)
    (hfits : start + fieldSize defn wire start ≤ wire.length) :
    encodeField defn (decodeField defn wire (some start)).1 =
      .ok (window wire start (fieldSize defn wire start)) := by
  unfold tidyField at h
  unfold fieldSize at hfits ⊢
  cases hkind : defn.kind with
  | fixed =>
    simp only [hkind] at h hfits ⊢
    have hlength : (window wire start defn.length).length = defn.length := length_window hfits
    have hvalue : (decodeField defn wire (some start)).1 =
        (window wire start defn.length).trimEnd := by
      simp only [decodeField, hkind, add_some, slice_drop_take, window]
    have hshort : (window wire start defn.length).trimEnd.length ≤ defn.length :=
      (List.rdropWhile_prefix ..).length_le.trans hlength.le
    have hback := padEnd_trimEnd h
    rw [hlength] at hback
    rw [hvalue, encodeField_fixed hkind hshort, hback]
  | numeric =>
    simp only [hkind] at h hfits ⊢
    have hvalue : (decodeField defn wire (some start)).1 = window wire start defn.length := by
      simp only [decodeField, hkind, add_some, slice_drop_take, window]
    rw [hvalue, encodeField_numeric hkind (length_window hfits) (List.all_eq_true.mp h)]
  | llvar =>
    simp only [hkind] at h hfits ⊢
    have hvar := encodeVar_of_tidy (by decide) h hfits
    simp only [encodeField, decodeField, hkind]
    exact hvar
  | lllvar =>
    simp only [hkind] at h hfits ⊢
    have hvar := encodeVar_of_tidy (by decide) h hfits
    simp only [encodeField, decodeField, hkind]
    exact hvar

theorem length_slice_zero {s : Text} {n : Nat} (hn : n ≤ s.length) :
    (s.slice (some 0) (some n)).length = n := by
  have htake : s.slice (some 0) (some n) = s.take n := by simpa using slice_drop_take s 0 n
  rw [htake, List.length_take, min_eq_left hn]

theorem tidyVar_of_encoded {defn : FieldDef} {digits : Nat} {value part : Text}
    (hpos : 0 < digits) (hfits : defn.length < 10 ^ digits)
    (h : encodeVar defn digits value = .ok part) (pre post : Text) :
    tidyVar defn digits (pre ++ part ++ post) pre.length = true ∧
      digits + digitsNumber (window (pre ++ part ++ post) pre.length digits) = part.length := by
  rw [encodeVar] at h
  split_ifs at h with hlong
  cases h
  have hlength := length_padStart hpos ((Nat.le_of_not_lt hlong).trans_lt hfits)
  have hwindow : window (pre ++ ((decimal value.length).padStart digits 48 ++ value) ++ post)
      pre.length digits = (decimal value.length).padStart digits 48 := by
    rw [← List.append_assoc, List.append_assoc _ value]
    exact window_append pre _ _ hlength
  have hnumber : digitsNumber ((decimal value.length).padStart digits 48) = value.length := by
    rw [Text.padStart, List.leftpad, digitsNumber_zeros, digitsNumber_decimal]
  rw [tidyVar, hwindow, hnumber, List.length_append, hlength]
  refine ⟨decide_eq_true ⟨rfl, ?_, Nat.le_of_not_lt hlong⟩, rfl⟩
  exact List.all_eq_true.mpr (isDigitUnit_padStart (isDigitUnit_decimal _))

/-- What the encoder makes of a value is tidy, and the decoder takes just as much. -/
theorem tidyField_of_encoded {f : Int} {defn : FieldDef} {pre part post : Text}
    (hdefn : FIELDS f = some defn)
    (h : encodeField defn (decodeField defn (pre ++ part ++ post) (some pre.length)).1 =
      .ok part) :
    tidyField defn (pre ++ part ++ post) pre.length = true ∧
      fieldSize defn (pre ++ part ++ post) pre.length = part.length := by
  cases hkind : defn.kind with
  | fixed =>
    have hvalue : (decodeField defn (pre ++ part ++ post) (some pre.length)).1 =
        (window (pre ++ part ++ post) pre.length defn.length).trimEnd := by
      simp only [decodeField, hkind, add_some, slice_drop_take, window]
    rw [hvalue] at h
    have hlength : part.length = defn.length := by
      simp only [encodeField, hkind] at h
      rw [← congrArg List.length (Except.ok.inj h)]
      apply length_slice_zero
      rw [Text.padEnd, List.length_rightpad]
      exact le_max_left ..
    have hwindow : window (pre ++ part ++ post) pre.length defn.length = part :=
      window_append pre part post hlength
    have hshort : part.trimEnd.length ≤ defn.length :=
      (List.rdropWhile_prefix ..).length_le.trans hlength.le
    rw [hwindow, encodeField_fixed hkind hshort] at h
    have hpart : part.trimEnd.padEnd defn.length 32 = part := Except.ok.inj h
    have hspaces := rtakeWhile_padEnd (n := defn.length) (trimEnd_trimEnd part)
    rw [hpart] at hspaces
    simp only [tidyField, fieldSize, hkind, hwindow]
    exact ⟨hspaces, hlength.symm⟩
  | numeric =>
    simp only [encodeField, hkind] at h
    simp only [tidyField, fieldSize, hkind]
    generalize (decodeField defn (pre ++ part ++ post) (some pre.length)).1 = value at h
    cases h
    have hlong : defn.length ≤ (value.digitsOnly.padStart defn.length 48).length := by
      rw [Text.padStart, List.length_leftpad]
      exact le_max_left ..
    have hlength := length_sliceFrom_neg (length_pos hdefn) hlong
    refine ⟨?_, hlength.symm⟩
    rw [window_append _ _ _ hlength, List.all_eq_true]
    intro u hu
    apply isDigitUnit_padStart _ u (List.mem_of_mem_drop hu)
    intro v hv
    exact (List.mem_filter.mp hv).2
  | llvar =>
    simp only [encodeField, hkind] at h
    simp only [tidyField, fieldSize, hkind]
    exact tidyVar_of_encoded (by decide) ((prefix_fits hdefn).1 hkind) h pre post
  | lllvar =>
    simp only [encodeField, hkind] at h
    simp only [tidyField, fieldSize, hkind]
    exact tidyVar_of_encoded (by decide) ((prefix_fits hdefn).2 hkind) h pre post

theorem lookup_decodeParts {wire : Text} {fields : List Int}
    {state state' : FieldValues × Option Int}
    (h : fields.foldlM (decodePart wire) state = .ok state') {g : Int} (hg : g ∉ fields) :
    state'.1.lookup g = state.1.lookup g := by
  induction fields generalizing state with
  | nil =>
    cases h
    rfl
  | cons f fields ih =>
    obtain ⟨next, hstep, hloop⟩ := foldlM_cons_eq_ok h
    obtain ⟨defn, -, rfl⟩ := decodePart_ok hstep
    rw [List.mem_cons, not_or] at hg
    rw [ih hloop hg.2, Finmap.lookup_insert_of_ne _ hg.1]

theorem mem_decodeParts {wire : Text} {fields : List Int}
    {state state' : FieldValues × Option Int}
    (h : fields.foldlM (decodePart wire) state = .ok state') {g : Int} :
    g ∈ state'.1 ↔ g ∈ fields ∨ g ∈ state.1 := by
  induction fields generalizing state with
  | nil =>
    cases h
    simp
  | cons f fields ih =>
    obtain ⟨next, hstep, hloop⟩ := foldlM_cons_eq_ok h
    obtain ⟨defn, -, rfl⟩ := decodePart_ok hstep
    rw [ih hloop, Finmap.mem_insert, List.mem_cons]
    tauto

/-- The first field of the loop, its value and the loop over the others. -/
theorem decodeParts_cons {wire : Text} {f : Int} {fields : List Int} {msg : IsoMessage}
    {out : FieldValues} {start stop : Option Int} (hnodup : (f :: fields).Nodup)
    (h : (f :: fields).foldlM (decodePart wire) (out, start) = .ok (msg.fields, stop)) :
    ∃ defn, FIELDS f = some defn ∧
      encodePart msg f = encodeField defn (decodeField defn wire start).1 ∧
      fields.foldlM (decodePart wire) (out.insert f (decodeField defn wire start).1,
        fieldStop defn wire start) = .ok (msg.fields, stop) := by
  obtain ⟨next, hstep, hloop⟩ := foldlM_cons_eq_ok h
  obtain ⟨defn, hdefn, rfl⟩ := decodePart_ok hstep
  have hvalue := lookup_decodeParts hloop (List.nodup_cons.mp hnodup).1
  rw [Finmap.lookup_insert] at hvalue
  refine ⟨defn, hdefn, ?_, hloop⟩
  simp only [encodePart, hdefn, hvalue, Option.getD_some]

/-- The parts of the fields read from a tidy wire are the rest of the wire. -/
theorem encodeParts_of_tidy {wire : Text} {fields : List Int} {msg : IsoMessage}
    {out : FieldValues} {start : Nat} (hnodup : fields.Nodup)
    (htidy : tidyFrom wire start fields = true)
    (h : fields.foldlM (decodePart wire) (out, some (start : Int)) =
      .ok (msg.fields, some (wire.length : Int))) :
    start ≤ wire.length ∧
      ∃ parts, fields.mapM (encodePart msg) = .ok parts ∧ parts.flatten = wire.drop start := by
  induction fields generalizing out start with
  | nil =>
    have hstart : start = wire.length := by
      cases h
      rfl
    exact ⟨hstart.le, [], rfl, by rw [hstart, List.drop_length]; rfl⟩
  | cons f fields ih =>
    obtain ⟨defn, hdefn, hpart, hloop⟩ := decodeParts_cons hnodup h
    simp only [tidyFrom, hdefn, Option.any_some, Bool.and_eq_true] at htidy
    obtain ⟨hfield, hrest⟩ := htidy
    rw [fieldStop_of_tidy hfield] at hloop
    obtain ⟨hfits, parts, hparts, hflatten⟩ := ih (List.nodup_cons.mp hnodup).2 hrest hloop
    rw [encodeField_of_tidy hfield hfits] at hpart
    refine ⟨by omega, window wire start (fieldSize defn wire start) :: parts, ?_, ?_⟩
    · rw [List.mapM_cons, hpart, hparts]
      rfl
    · rw [List.flatten_cons, hflatten, ← drop_window]

/-- The parts of the encoder are tidy where the decoder reads them. -/
theorem tidyFrom_of_encoded {fields : List Int} {msg : IsoMessage} {stop : Option Int}
    {parts : List Text} (pre : Text) (out : FieldValues) (hnodup : fields.Nodup)
    (hparts : fields.mapM (encodePart msg) = .ok parts)
    (h : fields.foldlM (decodePart (pre ++ parts.flatten)) (out, some (pre.length : Int)) =
      .ok (msg.fields, stop)) :
    tidyFrom (pre ++ parts.flatten) pre.length fields = true := by
  induction fields generalizing out pre parts with
  | nil => rfl
  | cons f fields ih =>
    obtain ⟨part, rest, hpart, hrest, rfl⟩ := mapM_cons_eq_ok hparts
    rw [List.flatten_cons, ← List.append_assoc] at h ⊢
    obtain ⟨defn, hdefn, hvalue, hloop⟩ := decodeParts_cons hnodup h
    obtain ⟨hfield, hsize⟩ := tidyField_of_encoded hdefn (hvalue.symm.trans hpart)
    rw [fieldStop_of_tidy hfield, hsize, ← List.length_append] at hloop
    have htail := ih _ _ (List.nodup_cons.mp hnodup).2 hrest hloop
    rw [List.length_append] at htail
    simp only [tidyFrom, hdefn, Option.any_some, hfield, hsize, htail, Bool.and_self]

theorem length_head {wire : Text} (hlong : 20 ≤ wire.length) :
    (wire.slice (some 0) (some 4)).length = 4 ∧ (wire.slice (some 4) (some 20)).length = 16 := by
  have hmti : wire.slice (some 0) (some 4) = window wire 0 4 := slice_drop_take wire 0 4
  have hbitmap : wire.slice (some 4) (some 20) = window wire 4 16 := slice_drop_take wire 4 16
  rw [hmti, hbitmap]
  exact ⟨length_window (by omega), length_window (by omega)⟩

theorem head_append (wire : Text) :
    wire.slice (some 0) (some 4) ++ wire.slice (some 4) (some 20) ++ wire.drop 20 = wire := by
  have hmti : wire.slice (some 0) (some 4) = window wire 0 4 := slice_drop_take wire 0 4
  have hbitmap : wire.slice (some 4) (some 20) = window wire 4 16 := slice_drop_take wire 4 16
  have hhead := drop_window wire 0 4
  have hrest := drop_window wire 4 16
  rw [List.drop_zero, Nat.zero_add] at hhead
  rw [hmti, hbitmap, List.append_assoc, ← hrest, ← hhead]

/-- The fields of a decoded message are those that the bitmap lists. -/
theorem fieldNumbers_decoded {wire : Text} {msg : IsoMessage} (h : decodeMessage wire = .ok msg) :
    fieldNumbers msg.fields = listed wire := by
  obtain ⟨-, hbitmap, hloop, -⟩ := decodeMessage_eq_ok.mp h
  have hmem (f : Int) : f ∈ fieldNumbers msg.fields ↔ f ∈ listed wire := by
    rw [mem_fieldNumbers, mem_decodeParts hloop, or_iff_left Finmap.notMem_empty]
  have hlisted := bitmapToFields_ascending hbitmap
  have hperm : (fieldNumbers msg.fields).Perm (listed wire) :=
    (List.perm_ext_iff_of_nodup (fieldNumbers_ascending _).nodup hlisted.nodup).mpr hmem
  exact hperm.eq_of_pairwise' (fieldNumbers_ascending _) hlisted

/-- What the decoder accepts is written back as it was exactly when it is tidy. -/
theorem written_back_iff {wire : Text} {msg : IsoMessage} (h : decodeMessage wire = .ok msg) :
    encodeMessage msg = .ok wire ↔ tidy wire = true := by
  have hfields := fieldNumbers_decoded h
  obtain ⟨hlong, hbitmap, hloop, hmti⟩ := decodeMessage_eq_ok.mp h
  obtain ⟨hmtiLength, hbitmapLength⟩ := length_head hlong
  have hwindow : wire.slice (some 4) (some 20) = window wire 4 16 := slice_drop_take wire 4 16
  have hnodup := (bitmapToFields_ascending hbitmap).nodup
  constructor
  · intro hback
    obtain ⟨bitmap, parts, hwritten, hparts, hwire⟩ := encodeMessage_eq_ok hback
    rw [hfields] at hwritten hparts
    have hlength := length_fieldsToBitmap hwritten
    have hhead : (msg.mti ++ bitmap).length = 20 := by
      rw [List.length_append, hmti, hmtiLength, hlength]
    have hsame : window wire 4 16 = bitmap := by
      rw [hwire, ← hmtiLength, ← hmti]
      exact window_append _ _ _ hlength
    have hparts' := tidyFrom_of_encoded (msg.mti ++ bitmap) ∅ hnodup hparts (by
      rw [← hwire, hhead]
      exact hloop)
    rw [← hwire, hhead] at hparts'
    refine decide_eq_true ⟨?_, hparts'⟩
    rw [hsame, List.all_eq_true]
    exact isHexUnit_fieldsToBitmap hwritten
  · intro htidy
    obtain ⟨hhex, hrest⟩ := of_decide_eq_true htidy
    obtain ⟨-, parts, hparts, hflatten⟩ := encodeParts_of_tidy hnodup hrest hloop
    rw [← hwindow, List.all_eq_true] at hhex
    have hwritten := fieldsToBitmap_bitmapToFields hbitmapLength hhex hbitmap
    rw [encodeMessage, hfields, hwritten]
    change (List.mapM (encodePart msg) (listed wire) >>= _) = _
    rw [hparts]
    change Except.ok (List.flatten (msg.mti :: _ :: parts)) = _
    rw [List.flatten_cons, List.flatten_cons, hflatten, hmti, ← List.append_assoc, head_append]

theorem addsUp_iff (wire : Text) : addsUp wire = true ↔ ∃ msg, decodeMessage wire = .ok msg := by
  simp only [decodeMessage_eq_ok, addsUp, decide_eq_true_eq]
  constructor
  · rintro ⟨hlong, hsum⟩
    obtain ⟨out, hloop⟩ := (addsUpFrom_iff ∅).mp hsum
    refine ⟨⟨wire.slice (some 0) (some 4), out⟩, hlong, ?_, hloop, rfl⟩
    rw [listed, bitmapToFields, if_neg (not_not.mpr (length_head hlong).2)]
    rfl
  · rintro ⟨msg, hlong, -, hloop, -⟩
    exact ⟨hlong, (addsUpFrom_iff ∅).mpr ⟨msg.fields, hloop⟩⟩

/-- The decoder takes nothing that the encoder would not have written, except a wire that adds up
without being tidy. -/
theorem decoded_written_back_iff (wire : Text) :
    (∀ msg, decodeMessage wire = .ok msg → encodeMessage msg = .ok wire) ↔
      (addsUp wire = true → tidy wire = true) := by
  rw [addsUp_iff]
  constructor
  · rintro hback ⟨msg, h⟩
    exact (written_back_iff h).mp (hback msg h)
  · intro htidy msg h
    exact (written_back_iff h).mpr (htidy ⟨msg, h⟩)

/-- A bitmap of letters that are no hex digits is read as an empty one. -/
theorem no_bitmap_accepted :
    ¬ ∀ msg, decodeMessage (utf16 "0200zzzzzzzzzzzzzzzz") = .ok msg →
      encodeMessage msg = .ok (utf16 "0200zzzzzzzzzzzzzzzz") := by
  intro hback
  have hread : decodeMessage (utf16 "0200zzzzzzzzzzzzzzzz") = .ok ⟨utf16 "0200", ∅⟩ :=
    decodeMessage_eq_ok.mpr ⟨by decide, by decide, by decide, by decide⟩
  have hwritten := hback _ hread
  have hnone : fieldNumbers ∅ = [] := Finset.sort_empty _
  rw [encodeMessage, hnone] at hwritten
  revert hwritten
  decide

end AtmXfs.Iso8583
