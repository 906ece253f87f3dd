import AtmXfs.Dll.Payload

namespace AtmXfs.Dll

open Js JsonText
open Framing (Bytes)

/-- The key and the value of a line: blanks before the key do not count, a line without `=` has
an empty value, and one without a key is none. -/
def linePair (line : Bytes) : Option (Bytes × Bytes) :=
  let text := line.dropWhile isLeading
  let key := text.takeWhile (· ≠ 0x3d)
  if key = [] then none else some (key, (text.dropWhile (· ≠ 0x3d)).drop 1)

/-- The pairs of the CR/LF-delimited list. -/
def listPairs (fields : Bytes) : List (Bytes × Bytes) :=
  (fields.splitOnP isLineEnd).filterMap linePair

theorem fieldPairs_dropWhile (p : Bytes) : fieldPairs (p.dropWhile isLeading) = fieldPairs p := by
  have hidem : (p.dropWhile isLeading).dropWhile isLeading = p.dropWhile isLeading :=
    List.dropWhile_idempotent isLeading p
  conv_lhs => rw [fieldPairs]
  conv_rhs => rw [fieldPairs]
  simp only [hidem]

theorem fieldPairs_lineEnd {c : UInt8} (hc : isLineEnd c = true) (rest : Bytes) :
    fieldPairs (c :: rest) = fieldPairs rest := by
  have hleading : isLeading c = true := by
    simp only [isLineEnd, isLeading, decide_eq_true_eq] at hc ⊢
    rcases hc with rfl | rfl
    · exact Or.inl rfl
    · exact Or.inr (Or.inl rfl)
  rw [← fieldPairs_dropWhile (c :: rest), List.dropWhile_cons, if_pos hleading,
    fieldPairs_dropWhile]

/-- What is left behind a line: nothing, or the end of the line and what follows it. -/
def Ended (rest : Bytes) : Prop := ∀ c ∈ rest.head?, isLineEnd c = true

theorem takeWhile_line {l rest : Bytes} {q : UInt8 → Bool} (hq : ∀ c, isLineEnd c = true → q c = false)
    (hrest : Ended rest) : (l ++ rest).takeWhile q = l.takeWhile q ∧
      (l ++ rest).dropWhile q = l.dropWhile q ++ rest := by
  induction l with
  | nil =>
    cases rest with
    | nil => exact ⟨rfl, rfl⟩
    | cons c rest =>
      have hc := hq c (hrest c rfl)
      simp [hc]
  | cons b l ih =>
    obtain ⟨htake, hdrop⟩ := ih
    cases hb : q b with
    | true => simp [hb, htake, hdrop]
    | false => simp [hb]

/-- One round of the loop over a line that has no line end in it. -/
theorem fieldLine_eq {l rest : Bytes} (hl : ∀ b ∈ l, isLineEnd b = false) (hrest : Ended rest) :
    fieldLine (l ++ rest) =
      (l.takeWhile (· ≠ 0x3d), (l.dropWhile (· ≠ 0x3d)).drop 1, rest) := by
  have hkey : l.takeWhile isKeyByte = l.takeWhile (· ≠ 0x3d) ∧
      l.dropWhile isKeyByte = l.dropWhile (· ≠ 0x3d) := by
    induction l with
    | nil => exact ⟨rfl, rfl⟩
    | cons b l ih =>
      obtain ⟨hb, hl⟩ := List.forall_mem_cons.mp hl
      obtain ⟨htake, hdrop⟩ := ih hl
      have hbyte : isKeyByte b = decide (b ≠ 0x3d) := by simp [isKeyByte, hb]
      rw [List.takeWhile_cons, List.takeWhile_cons, List.dropWhile_cons, List.dropWhile_cons,
        htake, hdrop, hbyte]
      exact ⟨rfl, rfl⟩
  have hstop : ∀ c, isLineEnd c = true → isKeyByte c = false := by
    intro c hc
    simp [isKeyByte, hc]
  obtain ⟨htake, hdrop⟩ := takeWhile_line (l := l) hstop hrest
  rw [hkey.1] at htake
  rw [hkey.2] at hdrop
  simp only [fieldLine, htake, hdrop]
  cases hvalue : l.dropWhile (· ≠ 0x3d) with
  | nil =>
    rw [List.nil_append, List.drop_nil]
    cases rest with
    | nil => rfl
    | cons c rest =>
      have hc : c ≠ 0x3d := by
        rintro rfl
        exact absurd (hrest 0x3d rfl) (by decide)
      simp only [if_neg hc]
  | cons e v =>
    have he : e = 0x3d := by
      have hhead := List.head?_dropWhile_not (fun b : UInt8 => decide (b ≠ 0x3d)) l
      rw [hvalue] at hhead
      simpa using hhead
    have hv : ∀ b ∈ v, isLineEnd b = false := by
      intro b hb
      have hsub := List.dropWhile_sublist (fun b : UInt8 => decide (b ≠ 0x3d)) (l := l)
      rw [hvalue] at hsub
      exact hl b (hsub.mem (List.mem_cons_of_mem _ hb))
    obtain ⟨hval, hleft⟩ := takeWhile_line (l := v) (q := fun b => !isLineEnd b)
      (fun c hc => by simp [hc]) hrest
    have hall : v.takeWhile (fun b => !isLineEnd b) = v ∧
        v.dropWhile (fun b => !isLineEnd b) = [] := by
      rw [List.takeWhile_eq_self_iff, List.dropWhile_eq_nil_iff]
      exact ⟨fun b hb => by simp [hv b hb], fun b hb => by simp [hv b hb]⟩
    rw [List.cons_append]
    simp only [he, if_true, hval, hleft, hall.1, hall.2, List.nil_append, List.drop_succ_cons,
      List.drop_zero]

/-- A line and what follows it. -/
theorem fieldPairs_line {l rest : Bytes} (hl : ∀ b ∈ l, isLineEnd b = false)
    (hrest : Ended rest) :
    fieldPairs (l ++ rest) = (linePair l).toList ++ fieldPairs rest := by
  have hsplit : (l ++ rest).dropWhile isLeading =
      if l.dropWhile isLeading = [] then rest.dropWhile isLeading
      else l.dropWhile isLeading ++ rest := by
    split_ifs with hblank
    · rw [List.dropWhile_append, hblank]
      rfl
    · rw [List.dropWhile_append]
      simp [hblank]
  by_cases hblank : l.dropWhile isLeading = []
  · rw [if_pos hblank] at hsplit
    rw [← fieldPairs_dropWhile, hsplit, fieldPairs_dropWhile]
    simp [linePair, hblank]
  · rw [if_neg hblank] at hsplit
    have hline : ∀ b ∈ l.dropWhile isLeading, isLineEnd b = false :=
      fun b hb => hl b ((List.dropWhile_sublist _).mem hb)
    have hne : (l ++ rest).dropWhile isLeading ≠ [] := by
      rw [hsplit]
      simp [hblank]
    rw [fieldPairs, dif_neg hne]
    simp only [hsplit, fieldLine_eq hline hrest, linePair]
    split_ifs with hkey
    · rfl
    · rfl

/-- The loop over `lpszFields` comes to the pairs of its lines. -/
theorem fieldPairs_eq (p : Bytes) : fieldPairs p = listPairs p := by
  induction hn : p.length using Nat.strong_induction_on generalizing p with
  | _ n ih =>
    subst hn
    let q : UInt8 → Bool := fun b => !isLineEnd b
    have hsplit : p.takeWhile q ++ p.dropWhile q = p := List.takeWhile_append_dropWhile
    have hl : ∀ b ∈ p.takeWhile q, isLineEnd b = false := by
      intro b hb
      simpa [q] using List.mem_takeWhile_imp hb
    cases hrest : p.dropWhile q with
    | nil =>
      rw [hrest, List.append_nil] at hsplit
      have hended : Ended [] := fun c hc => by cases hc
      have hpairs := fieldPairs_line hl hended
      rw [List.append_nil, hsplit] at hpairs
      rw [hsplit] at hl
      have hnil : fieldPairs [] = [] := by rw [fieldPairs]; rfl
      rw [hpairs, hnil, List.append_nil, listPairs, List.splitOnP_eq_singleton hl,
        List.filterMap_cons]
      cases linePair p <;> rfl
    | cons c rest =>
      have hc : isLineEnd c = true := by
        have hhead := List.head?_dropWhile_not q p
        rw [hrest] at hhead
        simpa [q] using hhead
      have hended : Ended (c :: rest) := fun d hd => Option.mem_some.mp hd ▸ hc
      have hshort : rest.length < p.length := by
        rw [← hsplit, hrest, List.length_append, List.length_cons]
        omega
      have hpairs := fieldPairs_line hl hended
      rw [← hrest, hsplit, hrest, fieldPairs_lineEnd hc, ih rest.length hshort rest rfl] at hpairs
      have hlist : listPairs p = (linePair (p.takeWhile q)).toList ++ listPairs rest := by
        conv_lhs => rw [listPairs, ← hsplit, hrest]
        rw [List.splitOnP_append_cons_of_forall_mem hl c hc, List.filterMap_cons]
        cases linePair (p.takeWhile q) <;> rfl
      rw [hpairs, hlist]

theorem fieldLine_subset (p : Bytes) : (fieldLine p).1 ⊆ p ∧ (fieldLine p).2.1 ⊆ p ∧
    (fieldLine p).2.2 ⊆ p := by
  have hkey : p.takeWhile isKeyByte ⊆ p := (List.takeWhile_sublist _).subset
  have hdrop : p.dropWhile isKeyByte ⊆ p := (List.dropWhile_sublist _).subset
  unfold fieldLine
  simp only
  split
  · exact ⟨hkey, List.nil_subset _, List.nil_subset _⟩
  · rename_i c rest heq
    rw [heq] at hdrop
    have hrest : rest ⊆ p := fun b hb => hdrop (List.mem_cons_of_mem _ hb)
    split_ifs
    · exact ⟨hkey, fun b hb => hrest ((List.takeWhile_sublist _).subset hb),
        fun b hb => hrest ((List.dropWhile_sublist _).subset hb)⟩
    · exact ⟨hkey, List.nil_subset _, hdrop⟩

/-- The keys and values are made of the list's own bytes. -/
theorem fieldPairs_subset {p : Bytes} {pair : Bytes × Bytes} (h : pair ∈ fieldPairs p) :
    pair.1 ⊆ p ∧ pair.2 ⊆ p := by
  induction hn : p.length using Nat.strong_induction_on generalizing p with
  | _ n ih =>
    subst hn
    rw [fieldPairs] at h
    split_ifs at h with hblank
    · cases h
    · have hskip : p.dropWhile isLeading ⊆ p := (List.dropWhile_sublist _).subset
      obtain ⟨hfirst, hvalue, hrest⟩ := fieldLine_subset (p.dropWhile isLeading)
      have hlater : pair ∈ fieldPairs (fieldLine (p.dropWhile isLeading)).2.2 →
          pair.1 ⊆ p ∧ pair.2 ⊆ p := by
        intro hmem
        obtain ⟨hone, htwo⟩ := ih _ (length_fieldLine_lt hblank) hmem rfl
        exact ⟨fun b hb => hskip (hrest (hone hb)), fun b hb => hskip (hrest (htwo hb))⟩
      simp only at h
      split_ifs at h
      · exact hlater h
      · rcases List.mem_cons.mp h with rfl | hmem
        · exact ⟨fun b hb => hskip (hfirst hb), fun b hb => hskip (hvalue hb)⟩
        · exact hlater hmem

/-- The way in which the keys of the fields are written. -/
def keyEscape : Escape where
  write c := if c = 0x22 ∨ c = 0x5c then [0x5c, c] else [c]
  plain_or_escaped b := by
    by_cases hb : b = 0x22 ∨ b = 0x5c
    · refine Or.inr ⟨b, if_pos hb, ?_, ?_⟩
      · rcases hb with rfl | rfl <;> decide
      · rcases hb with rfl | rfl <;> decide
    · exact Or.inl ⟨if_neg hb, fun h => hb (Or.inl h), fun h => hb (Or.inr h)⟩

theorem keyEscape_fine (b : UInt8) : keyEscape.Fine b ↔ 0x20 ≤ b ∧ b < 0x80 := by
  rw [Escape.Fine]
  by_cases hb : b = 0x22 ∨ b = 0x5c
  · rcases hb with rfl | rfl <;> decide
  · have hplain : keyEscape.write b = [b] := if_neg hb
    rw [hplain]
    exact ⟨fun h => ⟨h.2 rfl, h.1⟩, fun h => ⟨h.2, fun _ => h.1⟩⟩

theorem escapeValue_eq (val : Bytes) : escapeValue val = Writer.escape val := by
  unfold escapeValue Writer.escape
  congr 1
  funext c
  unfold Writer.escapeByte
  by_cases hquote : c = 0x22
  · simp only [hquote, true_or, if_true]
    rfl
  by_cases hslash : c = 0x5c
  · have hne : (0x5c : UInt8) ≠ 0x22 := by decide
    simp only [hslash, or_true, if_true, if_neg hne]
    rfl
  simp [hquote, hslash]

/-- A pair as it is written, and what is read of it. -/
def fieldEntry (pair : Bytes × Bytes) : Entry :=
  ⟨escapeKey pair.1, keyEscape.readBack pair.1, ascii "\"" ++ escapeValue pair.2 ++ ascii "\"",
    (writerEscape.readBack pair.2).map .str⟩

theorem readable_fieldEntry (pair : Bytes × Bytes) : (fieldEntry pair).Readable := by
  refine ⟨keyEscape.str_readBack pair.1, ?_⟩
  have hvalue := reads_str writerEscape pair.2
  rw [fieldEntry, escapeValue_eq]
  exact hvalue

/-- Neither the key nor the value has a character that the marshaller cannot write. -/
def CleanPair (pair : Bytes × Bytes) : Prop :=
  (∀ b ∈ pair.1, 0x20 ≤ b ∧ b < 0x80) ∧ Clean pair.2

instance (pair : Bytes × Bytes) : Decidable (CleanPair pair) :=
  inferInstanceAs (Decidable (_ ∧ _))

def pairMember (pair : Bytes × Bytes) : Text × Json := (chars pair.1, .str (chars pair.2))

theorem read_fieldEntry {pair : Bytes × Bytes} (h : CleanPair pair) :
    (fieldEntry pair).read = some (pairMember pair) := by
  have hkey : keyEscape.readBack pair.1 = some (chars pair.1) :=
    (keyEscape.readBack_iff _).mpr fun b hb => (keyEscape_fine b).mpr (h.1 b hb)
  have hvalue := (readBack_iff_isClean pair.2).mpr h.2
  simp [fieldEntry, Entry.read, hkey, hvalue, pairMember]

theorem read_fieldEntry_none {pair : Bytes × Bytes} (hlow : ∀ b ∈ pair.1 ++ pair.2, b < 0x80)
    (h : ¬ CleanPair pair) : (fieldEntry pair).read = none := by
  obtain ⟨hkeyLow, hvalueLow⟩ := List.forall_mem_append.mp hlow
  cases hkey : keyEscape.readBack pair.1 with
  | none => simp [fieldEntry, Entry.read, hkey]
  | some key =>
    cases hvalue : writerEscape.readBack pair.2 with
    | none => simp [fieldEntry, Entry.read, hvalue]
    | some v =>
      refine absurd ⟨fun b hb => ?_, fun b hb => ?_⟩ h
      · exact (keyEscape_fine b).mp (keyEscape.fine_of_readBack hkeyLow hkey b hb)
      · exact (fine_iff_isClean b).mp (writerEscape.fine_of_readBack hvalueLow hvalue b hb)

/-- The fields of the list: of a repeated key the last value. -/
def expectedFields (fields : Bytes) : Json := .obj (ownMembers ((listPairs fields).map pairMember))

/-- What is read of the fields as they are written. -/
def fieldsRead (fields : Bytes) : Option Json :=
  (readEntries ((fieldPairs fields).map fieldEntry)).map fun ms => .obj (ownMembers ms)

theorem reads_fieldsJson (fields : Bytes) : Reads (fieldsJson fields) (fieldsRead fields) := by
  have hreadable : ∀ e ∈ (fieldPairs fields).map fieldEntry, e.Readable := by
    intro e he
    obtain ⟨pair, -, rfl⟩ := List.mem_map.mp he
    exact readable_fieldEntry pair
  have hobj := reads_obj hreadable
  have hwrite : ((fieldPairs fields).map fieldEntry).map Entry.write =
      (fieldPairs fields).map fieldPiece := by
    rw [List.map_map]
    apply List.map_congr_left
    intro pair _
    simp [fieldEntry, Entry.write, fieldPiece, ascii]
  rw [writeEntries_eq, hwrite] at hobj
  exact hobj

theorem fieldsRead_eq {fields : Bytes} (hfields : ∀ b ∈ fields, b < 0x80) :
    fieldsRead fields =
      if ∀ pair ∈ listPairs fields, CleanPair pair then some (expectedFields fields) else none := by
  unfold fieldsRead expectedFields
  rw [fieldPairs_eq]
  split_ifs with hclean
  · rw [readEntries_of_forall (f := pairMember) fun pair hpair => read_fieldEntry (hclean pair hpair)]
    rfl
  · push Not at hclean
    obtain ⟨pair, hpair, hbad⟩ := hclean
    have hsubset : pair.1 ⊆ fields ∧ pair.2 ⊆ fields := by
      rw [← fieldPairs_eq] at hpair
      exact fieldPairs_subset hpair
    have hlow : ∀ b ∈ pair.1 ++ pair.2, b < 0x80 := by
      intro b hb
      rcases List.mem_append.mp hb with hb | hb
      · exact hfields b (hsubset.1 hb)
      · exact hfields b (hsubset.2 hb)
    rw [readEntries_none ⟨fieldEntry pair, List.mem_map_of_mem hpair, read_fieldEntry_none hlow hbad⟩]
    rfl

theorem sevenBit_cstr (p : Option CString) : ∀ b ∈ cstr p, b < 0x80 := by
  cases p with
  | none => exact fun b hb => absurd hb List.not_mem_nil
  | some s => exact s.sevenBit

/-- The members of a PRINT_FORM request. -/
def expectedPrintForm (req : PrintForm) : Json :=
  .obj [(utf16 "formName", .str (chars (stripForms (cstr req.lpszFormName)))),
    (utf16 "mediaType", .str (chars (mediaName (cstr req.lpszMediaName)))),
    (utf16 "cut", .bool (isCut req.wMediaControl)),
    (utf16 "fields", expectedFields (cstr req.lpszFields))]

theorem clean_stripForms (form : Bytes) : Clean (stripForms form) ↔ Clean form := by
  unfold stripForms
  split_ifs with hprefix
  · obtain ⟨rest, rfl⟩ := List.isPrefixOf_iff_prefix.mp hprefix
    have hdrop : (ascii "FORMS." ++ rest).drop 6 = rest := rfl
    have hforms : Clean (ascii "FORMS.") := by decide
    rw [hdrop]
    constructor
    · intro hrest b hb
      rcases List.mem_append.mp hb with hb | hb
      · exact hforms b hb
      · exact hrest b hb
    · exact fun h b hb => h b (List.mem_append_right _ hb)
  · rfl

theorem clean_mediaName (media : Bytes) : Clean (mediaName media) ↔ Clean media := by
  unfold mediaName
  split_ifs with hempty
  · subst hempty
    decide
  · rfl

def printFormMembers (req : PrintForm) : List Member :=
  [stringMember "formName" (stripForms (cstr req.lpszFormName)),
    stringMember "mediaType" (mediaName (cstr req.lpszMediaName)),
    boolMember "cut" (isCut req.wMediaControl),
    ⟨"fields", fieldsJson (cstr req.lpszFields), fieldsRead (cstr req.lpszFields)⟩]

theorem parse_printForm (req : PrintForm) :
    parse (marshalPtrPrintForm (some req)) =
      (Member.readAll (printFormMembers req)).map .obj := by
  have hbuild : marshalPtrPrintForm (some req) = Member.build (printFormMembers req) := rfl
  rw [hbuild, parse_build ["formName", "mediaType", "cut", "fields"] rfl (by decide)]
  intro m hm
  simp only [printFormMembers, List.mem_cons, List.not_mem_nil, or_false] at hm
  rcases hm with rfl | rfl | rfl | rfl
  · exact legible_string (readBack_name (by decide)) _
  · exact legible_string (readBack_name (by decide)) _
  · exact legible_bool (readBack_name (by decide)) _
  · have hname : writerEscape.readBack (ascii "fields") = some (utf16 "fields") :=
      readBack_name (by decide)
    exact ⟨hname, reads_fieldsJson _⟩

/-- A field that cannot be written makes the whole payload unreadable. -/
theorem parse_printForm_none {req : PrintForm}
    (h : ¬ ∀ pair ∈ listPairs (cstr req.lpszFields), CleanPair pair) :
    parse (marshalPtrPrintForm (some req)) = none := by
  rw [parse_printForm, printFormMembers, fieldsRead_eq (sevenBit_cstr req.lpszFields), if_neg h]
  cases hform : writerEscape.readBack (stripForms (cstr req.lpszFormName)) with
  | none => simp [Member.readAll, stringMember, hform]
  | some form => simp [Member.readAll, stringMember, boolMember, hform]

theorem marshalPtrPrintForm_parse (req : PrintForm) :
    parse (marshalPtrPrintForm (some req)) = some (expectedPrintForm req) ↔
      Clean (cstr req.lpszFormName) ∧ Clean (cstr req.lpszMediaName) ∧
        ∀ pair ∈ listPairs (cstr req.lpszFields), CleanPair pair := by
  by_cases hfields : ∀ pair ∈ listPairs (cstr req.lpszFields), CleanPair pair
  · rw [and_iff_left hfields, ← clean_stripForms (cstr req.lpszFormName),
      ← clean_mediaName (cstr req.lpszMediaName), parse_printForm, printFormMembers,
      fieldsRead_eq (sevenBit_cstr req.lpszFields), if_pos hfields]
    unfold Clean
    rw [← readBack_iff_isClean, ← readBack_iff_isClean]
    cases hform : writerEscape.readBack (stripForms (cstr req.lpszFormName)) with
    | none => simp [Member.readAll, stringMember, hform]
    | some form =>
      cases hmedia : writerEscape.readBack (mediaName (cstr req.lpszMediaName)) with
      | none => simp [Member.readAll, stringMember, hform, hmedia]
      | some media =>
        simp [Member.readAll, stringMember, boolMember, hform, hmedia, expectedPrintForm]
  · rw [parse_printForm_none hfields]
    exact iff_of_false (Option.some_ne_none _).symm fun h => hfields h.2.2

/-- What the payload of a command is to be read as: the fields of its structure. -/
def expectedPayload : (struct : Struct) → struct.Data → Json
  | .none, _ => .obj []
  | .readRawData, req => .obj [(utf16 "tracks", expectedTracks req.fwDataSource)]
  | .chipIo, req =>
    .obj [(utf16 "protocol", .str (utf16 (protocolName req.wChipProtocol))),
      (utf16 "apdu", .str (chars (hex req.lpbChipData)))]
  | .getPin, req => expectedGetPin req
  | .pinBlock, req => expectedPinBlock req
  | .dispense, req => expectedDispense req
  | .printForm, req => expectedPrintForm req
  | .rawData, req => expectedRawData req

/-- No text of the structure has a character that its marshaller cannot write. -/
def CleanTexts : (struct : Struct) → struct.Data → Prop
  | .pinBlock, req => Clean (cstr req.lpsKey) ∧ Clean (cstr req.lpsCustomerData)
  | .dispense, req => Clean req.denomination.cCurrencyID
  | .printForm, req =>
    Clean (cstr req.lpszFormName) ∧ Clean (cstr req.lpszMediaName) ∧
      ∀ pair ∈ listPairs (cstr req.lpszFields), CleanPair pair
  | _, _ => True

theorem parse_empty : parse (ascii "\x7b\x7d") = some (.obj []) := by
  have hbuild : ascii "\x7b\x7d" = Member.build [] := rfl
  rw [hbuild, parse_build [] rfl List.nodup_nil (fun m hm => absurd hm List.not_mem_nil)]
  rfl

/-- The payload is read as the fields of the structure exactly if its texts are clean. -/
theorem payloadToJson_parse (service : Bytes) (dwCommand : UInt32)
    (cmdData : (structOf service dwCommand).Data) :
    parse (payloadToJson service dwCommand (some cmdData)) =
        some (expectedPayload (structOf service dwCommand) cmdData) ↔
      CleanTexts (structOf service dwCommand) cmdData := by
  unfold payloadToJson
  revert cmdData
  cases structOf service dwCommand with
  | none => exact fun _ => iff_of_true parse_empty trivial
  | readRawData => exact fun req => iff_of_true (marshalIdcReadRawData_parse req) trivial
  | chipIo => exact fun req => iff_of_true (marshalIdcChipIo_parse req) trivial
  | getPin => exact fun req => iff_of_true (marshalPinGetPin_parse req) trivial
  | pinBlock => exact marshalPinGetPinblock_parse
  | dispense => exact marshalCdmDispense_parse
  | printForm => exact marshalPtrPrintForm_parse
  | rawData => exact fun req => iff_of_true (marshalPtrRawData_parse req) trivial

/-- A form with a tab in the name of its field. -/
def tabbedForm : PrintForm where
  lpszFormName := none
  lpszMediaName := none
  wMediaControl := 0
  lpszFields := some ⟨ascii "A\tB=1", by decide, by decide⟩

/-- Its payload is no JSON text, and the server drops the frame. -/
theorem tabbedForm_refused :
    structOf (ascii "PTR") 401 = .printForm ∧ parse (marshal .printForm (some tabbedForm)) = none ∧
      parse (marshal .printForm (some tabbedForm)) ≠
        some (expectedPayload .printForm tabbedForm) := by
  have hpairs : listPairs (cstr tabbedForm.lpszFields) = [(ascii "A\tB", ascii "1")] := by decide
  have hnone : parse (marshal .printForm (some tabbedForm)) = none := by
    apply parse_printForm_none
    rw [hpairs]
    decide
  refine ⟨by decide, hnone, ?_⟩
  rw [hnone]
  exact Option.some_ne_none _ |>.symm

end AtmXfs.Dll
