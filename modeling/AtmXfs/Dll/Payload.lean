import AtmXfs.Dll.Codec

namespace AtmXfs.Dll

open Js JsonText
open Framing (Bytes)

/-- A member that a marshaller writes: its name, the text of its value and what is read of it. -/
structure Member where
  name : String
  text : Bytes
  value : Option Json

namespace Member

def entry (m : Member) : Entry :=
  ⟨Writer.escape (ascii m.name), some (utf16 m.name), m.text, m.value⟩

/-- The name is read as it is, and the value as stated. -/
def Legible (m : Member) : Prop :=
  writerEscape.readBack (ascii m.name) = some (utf16 m.name) ∧ Reads m.text m.value

/-- The object that `Writer` makes of the members. -/
def build (ms : List Member) : Bytes :=
  (ms.foldl (fun w m => (w.key (ascii m.name)).raw m.text) Writer.new).str

def readAll : List Member → Option (List (Text × Json))
  | [] => some []
  | m :: rest => m.value.bind fun v => (readAll rest).map fun ms => (utf16 m.name, v) :: ms

end Member

open Member

theorem foldl_members (ms : List Member) (w : Writer) (hw : w.first = false) :
    (ms.foldl (fun w m => (w.key (ascii m.name)).raw m.text) w).out =
      w.out ++ ms.flatMap fun m => 0x2c :: m.entry.write := by
  induction ms generalizing w with
  | nil => simp
  | cons m rest ih =>
    rw [List.foldl_cons, ih _ rfl]
    simp only [Writer.raw, Writer.key, hw, List.flatMap_cons, entry, Entry.write]
    simp [ascii, List.append_assoc]

theorem writeEntries_cons (e : Entry) (rest : List Entry) :
    writeEntries (e :: rest) = e.write ++ rest.flatMap fun f => 0x2c :: f.write := by
  induction rest generalizing e with
  | nil => simp [writeEntries]
  | cons f rest ih => rw [writeEntries, ih f, List.flatMap_cons, List.cons_append]

theorem build_eq (ms : List Member) :
    build ms = 0x7b :: writeEntries (ms.map entry) ++ [0x7d] := by
  cases ms with
  | nil => rfl
  | cons m rest =>
    have hrest := foldl_members rest ((Writer.new.key (ascii m.name)).raw m.text) rfl
    rw [build, Writer.str, List.foldl_cons, hrest, List.map_cons, writeEntries_cons,
      List.flatMap_map]
    simp [Writer.raw, Writer.key, Writer.new, entry, Entry.write, ascii, List.append_assoc]

theorem readEntries_map (ms : List Member) : readEntries (ms.map entry) = readAll ms := by
  induction ms with
  | nil => rfl
  | cons m rest ih =>
    rw [List.map_cons, readEntries, readAll, ih]
    cases h : m.value with
    | none => simp [entry, Entry.read, h]
    | some v => simp [entry, Entry.read, h]

theorem names_readAll {ms : List Member} {members : List (Text × Json)}
    (h : readAll ms = some members) : members.map (·.1) = ms.map fun m => utf16 m.name := by
  induction ms generalizing members with
  | nil =>
    cases h
    rfl
  | cons m rest ih =>
    obtain ⟨v, -, h⟩ := Option.bind_eq_some_iff.mp h
    obtain ⟨later, hlater, rfl⟩ := Option.map_eq_some_iff.mp h
    rw [List.map_cons, List.map_cons, ih hlater]

/-- What a marshaller writes is read member by member. -/
theorem reads_build {ms : List Member} (names : List String) (hms : ms.map (·.name) = names)
    (hnames : (names.map utf16).Nodup) (h : ∀ m ∈ ms, m.Legible) :
    Reads (build ms) ((readAll ms).map .obj) := by
  have hreadable : ∀ e ∈ ms.map entry, e.Readable := by
    intro e he
    obtain ⟨m, hm, rfl⟩ := List.mem_map.mp he
    obtain ⟨hname, hvalue⟩ := h m hm
    refine ⟨fun more => ?_, hvalue⟩
    have hread := writerEscape.str_readBack (ascii m.name) more
    rw [hname] at hread
    exact hread
  have hobj := reads_obj hreadable
  rw [← build_eq, readEntries_map] at hobj
  have hown : (readAll ms).map (fun members => Json.obj (ownMembers members)) =
      (readAll ms).map .obj := by
    cases hread : readAll ms with
    | none => rfl
    | some members =>
      have hnodup : (members.map (·.1)).Nodup := by
        rw [← hms, List.map_map] at hnames
        rw [names_readAll hread]
        exact hnames
      rw [Option.map_some, Option.map_some, ownMembers_of_nodup hnodup]
  rwa [hown] at hobj

theorem parse_build {ms : List Member} (names : List String) (hms : ms.map (·.name) = names)
    (hnames : (names.map utf16).Nodup) (h : ∀ m ∈ ms, m.Legible) :
    parse (build ms) = (readAll ms).map .obj :=
  parse_of_reads (reads_build names hms hnames h)

section members

def stringMember (name : String) (v : Bytes) : Member :=
  ⟨name, ascii "\"" ++ Writer.escape v ++ ascii "\"", (writerEscape.readBack v).map .str⟩

def numberMember (name : String) (v : Nat) : Member :=
  ⟨name, decimalBytes v, some (.num (.ofInt v))⟩

def boolMember (name : String) (v : Bool) : Member :=
  ⟨name, ascii (if v then "true" else "false"), some (.bool v)⟩

/-- A member whose value is spliced in as it is. -/
def rawMember (name : String) (text : Bytes) (v : Json) : Member := ⟨name, text, some v⟩

theorem legible_raw {name : String}
    (hname : writerEscape.readBack (ascii name) = some (utf16 name)) {text : Bytes} {v : Json}
    (hv : Reads text (some v)) : (rawMember name text v).Legible :=
  ⟨hname, hv⟩

theorem legible_string {name : String}
    (hname : writerEscape.readBack (ascii name) = some (utf16 name)) (v : Bytes) :
    (stringMember name v).Legible :=
  ⟨hname, reads_str writerEscape v⟩

theorem legible_number {name : String}
    (hname : writerEscape.readBack (ascii name) = some (utf16 name)) {v : Nat}
    (hv : v ≤ 2 ^ 53) : (numberMember name v).Legible :=
  ⟨hname, reads_decimal hv⟩

theorem legible_bool {name : String}
    (hname : writerEscape.readBack (ascii name) = some (utf16 name)) (v : Bool) :
    (boolMember name v).Legible :=
  ⟨hname, reads_bool v⟩

end members

/-- A name without a byte that would have to be escaped. -/
theorem reads_name {bs : Bytes} {t : Text} (h : writerEscape.readBack bs = some t)
    (hplain : writerEscape.text bs = bs) :
    Reads (ascii "\"" ++ bs ++ ascii "\"") (some (.str t)) := by
  have hread := reads_str writerEscape bs
  rw [h, hplain] at hread
  exact hread

/-- A list of names, quoted. -/
theorem reads_quotedList {names : List String}
    (h : ∀ s ∈ names, writerEscape.readBack (ascii s) = some (utf16 s) ∧
      writerEscape.text (ascii s) = ascii s) :
    Reads (quotedList names) (some (.arr (names.map fun s => .str (utf16 s)))) := by
  refine reads_arr ?_ ?_
  · rw [List.forall₂_map_left_iff, List.forall₂_map_right_iff, List.forall₂_same]
    exact fun s hs => reads_name (h s hs).1 (h s hs).2
  · intro t ht
    obtain ⟨s, -, rfl⟩ := List.mem_map.mp ht
    exact ⟨0x22, ascii s ++ ascii "\"", rfl, by decide, by decide⟩

theorem mem_keysOf {table : List (UInt32 × String)} {bits : UInt32} {name : String} :
    name ∈ keysOf table bits ↔ ∃ bit, (bit, name) ∈ table ∧ bits &&& bit ≠ 0 := by
  simp only [keysOf, List.mem_filterMap, Prod.exists, Option.ite_none_right_eq_some,
    Option.some.injEq]
  constructor
  · rintro ⟨bit, other, hmem, hbit, rfl⟩
    exact ⟨bit, hmem, hbit⟩
  · rintro ⟨bit, hmem, hbit⟩
    exact ⟨bit, name, hmem, hbit, rfl⟩

theorem reads_keysOf {table : List (UInt32 × String)}
    (h : ∀ entry ∈ table, writerEscape.readBack (ascii entry.2) = some (utf16 entry.2) ∧
      writerEscape.text (ascii entry.2) = ascii entry.2) (bits : UInt32) :
    Reads (quotedList (keysOf table bits))
      (some (.arr ((keysOf table bits).map fun s => .str (utf16 s)))) := by
  refine reads_quotedList fun s hs => ?_
  obtain ⟨bit, hmem, -⟩ := mem_keysOf.mp hs
  exact h (bit, s) hmem

/-- A name of plain characters is read as it is. -/
theorem readBack_name {name : String}
    (h : (ascii name).all isClean = true ∧ chars (ascii name) = utf16 name) :
    writerEscape.readBack (ascii name) = some (utf16 name) := by
  rw [← h.2, readBack_iff_isClean]
  exact List.all_eq_true.mp h.1

theorem text_name {name : String}
    (h : (ascii name).all (fun b => Writer.escapeByte b = [b]) = true) :
    writerEscape.text (ascii name) = ascii name := by
  apply writerEscape.text_eq_self
  intro b hb
  exact of_decide_eq_true (List.all_eq_true.mp h b hb)

/-- The numbers of the tracks whose bits are set, 0 for the chip. -/
def expectedTracks (mask : UInt16) : Json :=
  .arr ((trackNumbers mask).map fun n : Nat => .num (.ofInt n))

def expectedKeys (names : List String) : Json := .arr (names.map fun s => .str (utf16 s))

theorem reads_tracks (mask : UInt16) :
    Reads (ascii "[" ++ listed ((trackNumbers mask).map decimalBytes) ++ ascii "]")
      (some (expectedTracks mask)) := by
  have hsmall : ∀ n ∈ trackNumbers mask, n ≤ 3 := by
    intro n hn
    obtain ⟨⟨bit, m⟩, hmem, hread⟩ := List.mem_filterMap.mp hn
    have hm : m = n := (Option.ite_none_right_eq_some.mp hread).2 |> Option.some.inj
    subst hm
    revert hmem
    generalize hlist : [((0x0001 : UInt16), 1), (0x0002, 2), (0x0004, 3), (0x0008, 0)] = l
    intro hmem
    have hall : ∀ e ∈ l, e.2 ≤ 3 := by rw [← hlist]; decide
    exact hall _ hmem
  refine reads_arr ?_ ?_
  · rw [List.forall₂_map_left_iff, List.forall₂_map_right_iff, List.forall₂_same]
    exact fun n hn => reads_decimal (le_trans (hsmall n hn) (by norm_num))
  · intro t ht
    obtain ⟨n, hn, rfl⟩ := List.mem_map.mp ht
    have hle := hsmall n hn
    interval_cases n
    · exact ⟨48, [], by decide, by decide, by decide⟩
    · exact ⟨49, [], by decide, by decide, by decide⟩
    · exact ⟨50, [], by decide, by decide, by decide⟩
    · exact ⟨51, [], by decide, by decide, by decide⟩

theorem marshalIdcReadRawData_parse (req : ReadRawData) :
    parse (marshalIdcReadRawData (some req)) =
      some (.obj [(utf16 "tracks", expectedTracks req.fwDataSource)]) := by
  have hbuild : marshalIdcReadRawData (some req) = build [rawMember "tracks"
      (ascii "[" ++ listed ((trackNumbers req.fwDataSource).map decimalBytes) ++ ascii "]")
      (expectedTracks req.fwDataSource)] := rfl
  rw [hbuild, parse_build ["tracks"] rfl (by decide)]
  · rfl
  · intro m hm
    rw [List.mem_singleton.mp hm]
    exact legible_raw (readBack_name (by decide)) (reads_tracks _)

theorem isClean_hex (data : Bytes) : ∀ b ∈ hex data, isClean b = true := by
  have hdigit : ∀ n < 16, isClean (hexByte n) = true := by decide
  intro b hb
  obtain ⟨byte, -, hmem⟩ := List.mem_flatMap.mp hb
  simp only [List.mem_cons, List.not_mem_nil, or_false] at hmem
  rcases hmem with rfl | rfl
  · exact hdigit _ (Nat.mod_lt _ (by decide))
  · exact hdigit _ (Nat.mod_lt _ (by decide))

theorem legible_protocol (wChipProtocol : UInt16) :
    writerEscape.readBack (ascii (protocolName wChipProtocol)) =
      some (utf16 (protocolName wChipProtocol)) := by
  unfold protocolName
  split_ifs
  · exact readBack_name (by decide)
  · exact readBack_name (by decide)
  · exact readBack_name (by decide)

theorem marshalIdcChipIo_parse (req : ChipIo) :
    parse (marshalIdcChipIo (some req)) =
      some (.obj [(utf16 "protocol", .str (utf16 (protocolName req.wChipProtocol))),
        (utf16 "apdu", .str (chars (hex req.lpbChipData)))]) := by
  have hbuild : marshalIdcChipIo (some req) =
      build [stringMember "protocol" (ascii (protocolName req.wChipProtocol)),
        stringMember "apdu" (hex req.lpbChipData)] := rfl
  have hhex := (readBack_iff_isClean (hex req.lpbChipData)).mpr (isClean_hex _)
  rw [hbuild, parse_build ["protocol", "apdu"] rfl (by decide)]
  · simp [readAll, stringMember, legible_protocol, hhex]
  · intro m hm
    rcases List.mem_pair.mp hm with rfl | rfl
    · exact legible_string (readBack_name (by decide)) _
    · exact legible_string (readBack_name (by decide)) _

/-- The members of a GET_PIN request. -/
def expectedGetPin (req : GetPin) : Json :=
  .obj [(utf16 "minLen", .num (.ofInt req.usMinLen.toNat)),
    (utf16 "maxLen", .num (.ofInt req.usMaxLen.toNat)),
    (utf16 "autoEnd", .bool (req.bAutoEnd ≠ 0)),
    (utf16 "activeKeys", expectedKeys (keysOf (digitKeys ++ functionKeys) req.ulActiveKeys)),
    (utf16 "activeFDKs", expectedKeys (keysOf fdkKeys req.ulActiveFDKs)),
    (utf16 "terminateKeys", expectedKeys (keysOf functionKeys req.ulTerminateKeys))]

theorem reads_keys {table : List (UInt32 × String)}
    (h : (table.all fun entry => (ascii entry.2).all isClean ∧
      (ascii entry.2).all (fun b => Writer.escapeByte b = [b]) ∧
      chars (ascii entry.2) = utf16 entry.2) = true) (bits : UInt32) :
    Reads (quotedList (keysOf table bits)) (some (expectedKeys (keysOf table bits))) := by
  refine reads_keysOf (fun entry hentry => ?_) bits
  obtain ⟨hclean, hplain, hchars⟩ := of_decide_eq_true (List.all_eq_true.mp h entry hentry)
  exact ⟨readBack_name ⟨hclean, hchars⟩, text_name hplain⟩

theorem marshalPinGetPin_parse (req : GetPin) :
    parse (marshalPinGetPin (some req)) = some (expectedGetPin req) := by
  have hbuild : marshalPinGetPin (some req) =
      build [numberMember "minLen" req.usMinLen.toNat, numberMember "maxLen" req.usMaxLen.toNat,
        boolMember "autoEnd" (req.bAutoEnd ≠ 0),
        rawMember "activeKeys" (keyList req.ulActiveKeys false)
          (expectedKeys (keysOf (digitKeys ++ functionKeys) req.ulActiveKeys)),
        rawMember "activeFDKs" (fdkList req.ulActiveFDKs)
          (expectedKeys (keysOf fdkKeys req.ulActiveFDKs)),
        rawMember "terminateKeys" (keyList req.ulTerminateKeys true)
          (expectedKeys (keysOf functionKeys req.ulTerminateKeys))] := rfl
  have hword : ∀ n : UInt16, n.toNat ≤ 2 ^ 53 := fun n =>
    le_trans (Nat.le_of_lt n.toNat_lt) (by norm_num)
  rw [hbuild, parse_build ["minLen", "maxLen", "autoEnd", "activeKeys", "activeFDKs",
    "terminateKeys"] rfl (by decide)]
  · rfl
  · intro m hm
    simp only [List.mem_cons, List.not_mem_nil, or_false] at hm
    rcases hm with rfl | rfl | rfl | rfl | rfl | rfl
    · exact legible_number (readBack_name (by decide)) (hword _)
    · exact legible_number (readBack_name (by decide)) (hword _)
    · exact legible_bool (readBack_name (by decide)) _
    · exact legible_raw (readBack_name (by decide)) (reads_keys (by decide) _)
    · exact legible_raw (readBack_name (by decide)) (reads_keys (by decide) _)
    · exact legible_raw (readBack_name (by decide)) (reads_keys (by decide) _)

/-- The members of a GET_PINBLOCK request. -/
def expectedPinBlock (req : PinBlock) : Json :=
  .obj [(utf16 "keyName", .str (chars (cstr req.lpsKey))),
    (utf16 "format", .str (utf16 (formatName req.wFormat))),
    (utf16 "pan", .str (chars (cstr req.lpsCustomerData)))]

def Clean (bs : Bytes) : Prop := ∀ b ∈ bs, isClean b = true

instance (bs : Bytes) : Decidable (Clean bs) := inferInstanceAs (Decidable (∀ b ∈ bs, _))

theorem legible_format (wFormat : UInt16) :
    writerEscape.readBack (ascii (formatName wFormat)) = some (utf16 (formatName wFormat)) := by
  unfold formatName
  split_ifs <;> exact readBack_name (by decide)

theorem marshalPinGetPinblock_parse (req : PinBlock) :
    parse (marshalPinGetPinblock (some req)) = some (expectedPinBlock req) ↔
      Clean (cstr req.lpsKey) ∧ Clean (cstr req.lpsCustomerData) := by
  have hbuild : marshalPinGetPinblock (some req) =
      build [stringMember "keyName" (cstr req.lpsKey),
        stringMember "format" (ascii (formatName req.wFormat)),
        stringMember "pan" (cstr req.lpsCustomerData)] := rfl
  rw [hbuild, parse_build ["keyName", "format", "pan"] rfl (by decide)]
  · unfold Clean
    rw [← readBack_iff_isClean, ← readBack_iff_isClean]
    cases hkey : writerEscape.readBack (cstr req.lpsKey) with
    | none => simp [readAll, stringMember, hkey]
    | some key =>
      cases hpan : writerEscape.readBack (cstr req.lpsCustomerData) with
      | none => simp [readAll, stringMember, hkey, hpan, legible_format]
      | some pan => simp [readAll, stringMember, hkey, hpan, legible_format, expectedPinBlock]
  · intro m hm
    simp only [List.mem_cons, List.not_mem_nil, or_false] at hm
    rcases hm with rfl | rfl | rfl
    · exact legible_string (readBack_name (by decide)) _
    · exact legible_string (readBack_name (by decide)) _
    · exact legible_string (readBack_name (by decide)) _

theorem readEntries_of_forall {α : Type} {l : List α} {g : α → Entry} {f : α → Text × Json}
    (h : ∀ a ∈ l, (g a).read = some (f a)) : readEntries (l.map g) = some (l.map f) := by
  induction l with
  | nil => rfl
  | cons a rest ih =>
    rw [List.map_cons, readEntries, h a (List.mem_cons_self ..),
      ih fun b hb => h b (List.mem_cons_of_mem _ hb)]
    rfl

theorem readEntries_none {entries : List Entry} (h : ∃ e ∈ entries, e.read = none) :
    readEntries entries = none := by
  induction entries with
  | nil => simp at h
  | cons e rest ih =>
    obtain ⟨f, hf, hread⟩ := h
    rcases List.mem_cons.mp hf with rfl | hrest
    · rw [readEntries, hread, Option.bind_none]
    · rw [readEntries, ih ⟨f, hrest, hread⟩]
      cases e.read <;> rfl

/-- A count as the member of its slot. -/
def slotMember (i : Nat) (count : UInt16) : Text × Json :=
  (utf16 "slot" ++ decimal (i + 1), .num (.ofInt count.toNat))

def slotEntry (i : Nat) (count : UInt16) : Entry :=
  ⟨ascii "slot" ++ decimalBytes (i + 1), some (slotMember i count).1, decimalBytes count.toNat,
    some (slotMember i count).2⟩

theorem digit_plain {b : UInt8} (hb : 48 ≤ b.toNat ∧ b.toNat ≤ 57) :
    Writer.escapeByte b = [b] ∧ isClean b = true := by
  have hcases : ∀ c : UInt8, c.toNat < 48 → b ≠ c := by
    rintro c hc rfl
    omega
  have hslash : b ≠ 0x5c := by
    rintro rfl
    exact absurd hb.2 (by decide)
  constructor
  · rw [Writer.escapeByte, if_neg (hcases _ (by decide)), if_neg hslash,
      if_neg (hcases _ (by decide)), if_neg (hcases _ (by decide)), if_neg (hcases _ (by decide))]
  · have hlow : 0x20 ≤ b ∧ b < 0x80 := by
      rw [UInt8.le_iff_toNat_le, UInt8.lt_iff_toNat_lt]
      exact ⟨le_trans (by decide) hb.1, lt_of_le_of_lt hb.2 (by decide)⟩
    simp [isClean, hlow]

theorem readable_slotEntry (i : Nat) (count : UInt16) : (slotEntry i count).Readable := by
  have hplain : ∀ b ∈ ascii "slot" ++ decimalBytes (i + 1),
      Writer.escapeByte b = [b] ∧ isClean b = true := by
    intro b hb
    have hletters : ∀ b ∈ ascii "slot", Writer.escapeByte b = [b] ∧ isClean b = true := by decide
    rcases List.mem_append.mp hb with hslot | hdigit
    · exact hletters b hslot
    · exact digit_plain (isDigit_decimalBytes hdigit)
  refine ⟨fun more => ?_, reads_decimal (le_trans (Nat.le_of_lt count.toNat_lt) (by norm_num))⟩
  have hread := writerEscape.str_readBack (ascii "slot" ++ decimalBytes (i + 1)) more
  rw [(readBack_iff_isClean _).mpr fun b hb => (hplain b hb).2,
    writerEscape.text_eq_self fun b hb => (hplain b hb).1] at hread
  rw [slotEntry, hread]
  simp only [slotMember, chars, List.map_append, Option.map_some]
  have hchars := chars_decimalBytes (i + 1)
  rw [chars] at hchars
  rw [hchars]
  rfl

theorem decimal_injective {m n : Nat} (h : decimal m = decimal n) : m = n := by
  rw [← digitsNumber_decimal m, h, digitsNumber_decimal]

theorem nodup_slots (counts : List UInt16) :
    ((counts.mapIdx slotMember).map (·.1)).Nodup := by
  rw [List.nodup_iff_injective_get]
  intro i j hij
  simp only [List.get_eq_getElem, List.getElem_map, List.getElem_mapIdx, slotMember] at hij
  have hslot := decimal_injective (List.append_cancel_left hij)
  exact Fin.ext (by omega)

theorem reads_mixStr (counts : List UInt16) :
    Reads (mixStr counts) (some (.obj (counts.mapIdx slotMember))) := by
  have hreadable : ∀ e ∈ counts.mapIdx slotEntry, e.Readable := by
    intro e he
    obtain ⟨i, hi, rfl⟩ := List.mem_mapIdx.mp he
    exact readable_slotEntry i _
  have hread : readEntries (counts.mapIdx slotEntry) = some (counts.mapIdx slotMember) := by
    rw [List.mapIdx_eq_zipIdx_map, List.mapIdx_eq_zipIdx_map]
    exact readEntries_of_forall fun _ _ => rfl
  have hwrite : (counts.mapIdx slotEntry).map Entry.write = counts.mapIdx slotPiece := by
    rw [List.mapIdx_eq_zipIdx_map, List.mapIdx_eq_zipIdx_map, List.map_map]
    apply List.map_congr_left
    intro entry _
    simp [slotEntry, Entry.write, slotPiece, ascii]
  have hobj := reads_obj hreadable
  rw [hread, Option.map_some, ownMembers_of_nodup (nodup_slots counts), writeEntries_eq,
    hwrite] at hobj
  exact hobj

theorem legible_mix (usMixNumber : UInt16) :
    writerEscape.readBack (ascii (mixName usMixNumber)) = some (utf16 (mixName usMixNumber)) := by
  unfold mixName
  split_ifs <;> exact readBack_name (by decide)

/-- The members that are written for every DISPENSE request. -/
def dispenseMembers (req : Dispense) : List Member :=
  [numberMember "amount" req.denomination.ulAmount.toNat,
    stringMember "currency" req.denomination.cCurrencyID,
    stringMember "mixType" (ascii (mixName req.usMixNumber)),
    boolMember "present" (req.bPresent ≠ 0)]

theorem legible_dispense (req : Dispense) : ∀ m ∈ dispenseMembers req, m.Legible := by
  intro m hm
  simp only [dispenseMembers, List.mem_cons, List.not_mem_nil, or_false] at hm
  rcases hm with rfl | rfl | rfl | rfl
  · exact legible_number (readBack_name (by decide))
      (le_trans (Nat.le_of_lt req.denomination.ulAmount.toNat_lt) (by norm_num))
  · exact legible_string (readBack_name (by decide)) _
  · exact legible_string (readBack_name (by decide)) _
  · exact legible_bool (readBack_name (by decide)) _

/-- What is read of a DISPENSE request, given what is read of its currency. -/
def dispenseObject (req : Dispense) (currency : Text) : Json :=
  .obj ([(utf16 "amount", .num (.ofInt req.denomination.ulAmount.toNat)),
    (utf16 "currency", .str currency),
    (utf16 "mixType", .str (utf16 (mixName req.usMixNumber))),
    (utf16 "present", .bool (req.bPresent ≠ 0))] ++
      ((customCounts req).toList.map fun counts =>
        (utf16 "customMix", .obj (counts.mapIdx slotMember))))

theorem parse_marshalCdmDispense (req : Dispense) :
    parse (marshalCdmDispense (some req)) =
      (writerEscape.readBack req.denomination.cCurrencyID).map (dispenseObject req) := by
  cases hcustom : customCounts req with
  | none =>
    have hbuild : marshalCdmDispense (some req) = build (dispenseMembers req) := by
      rw [marshalCdmDispense, hcustom]
      rfl
    rw [hbuild, parse_build ["amount", "currency", "mixType", "present"] rfl (by decide)
      (legible_dispense req)]
    cases hcurrency : writerEscape.readBack req.denomination.cCurrencyID with
    | none => simp [readAll, dispenseMembers, stringMember, numberMember, hcurrency]
    | some currency =>
      simp [readAll, dispenseMembers, stringMember, numberMember, boolMember, hcurrency,
        legible_mix, dispenseObject, hcustom]
  | some counts =>
    have hbuild : marshalCdmDispense (some req) = build (dispenseMembers req ++
        [rawMember "customMix" (mixStr counts) (.obj (counts.mapIdx slotMember))]) := by
      rw [marshalCdmDispense, hcustom]
      rfl
    have hlegible : ∀ m ∈ dispenseMembers req ++
        [rawMember "customMix" (mixStr counts) (.obj (counts.mapIdx slotMember))], m.Legible := by
      intro m hm
      rcases List.mem_append.mp hm with hm | hm
      · exact legible_dispense req m hm
      · rw [List.mem_singleton.mp hm]
        exact legible_raw (readBack_name (by decide)) (reads_mixStr counts)
    rw [hbuild, parse_build ["amount", "currency", "mixType", "present", "customMix"] rfl
      (by decide) hlegible]
    cases hcurrency : writerEscape.readBack req.denomination.cCurrencyID with
    | none => simp [readAll, dispenseMembers, stringMember, numberMember, hcurrency]
    | some currency =>
      simp [readAll, dispenseMembers, stringMember, numberMember, boolMember, rawMember,
        hcurrency, legible_mix, dispenseObject, hcustom]

/-- The members of a DISPENSE request. -/
def expectedDispense (req : Dispense) : Json :=
  dispenseObject req (chars req.denomination.cCurrencyID)

theorem marshalCdmDispense_parse (req : Dispense) :
    parse (marshalCdmDispense (some req)) = some (expectedDispense req) ↔
      Clean req.denomination.cCurrencyID := by
  unfold Clean
  rw [← readBack_iff_isClean, parse_marshalCdmDispense]
  cases hcurrency : writerEscape.readBack req.denomination.cCurrencyID with
  | none => simp
  | some currency => simp [expectedDispense, dispenseObject]

/-- The members of a RAW_DATA request. -/
def expectedRawData (req : RawData) : Json :=
  if req.lpbData.all isPrintable then .obj [(utf16 "data", .str (chars req.lpbData))]
  else .obj [(utf16 "data", .str []), (utf16 "dataBase64", .str (chars (base64 req.lpbData)))]

theorem isClean_of_isPrintable {b : UInt8} (h : isPrintable b = true) : isClean b = true := by
  simp only [isPrintable, decide_eq_true_eq] at h
  rcases h with rfl | rfl | rfl | ⟨hlow, hhigh⟩
  · rfl
  · rfl
  · rfl
  · have hlt : b < 0x80 := UInt8.lt_of_le_of_lt hhigh (by decide)
    simp [isClean, hlow, hlt]

theorem isClean_base64Digit {n : Nat} (hn : n < 64) : isClean (base64Digit n) = true := by
  have hall : ∀ n < 64, isClean (base64Digit n) = true := by decide +kernel
  exact hall n hn

theorem clean_base64 (data : Bytes) : Clean (base64 data) := by
  have hmod : ∀ n, isClean (base64Digit (n % 0x40)) = true :=
    fun n => isClean_base64Digit (Nat.mod_lt _ (by decide))
  have hpad : isClean 0x3d = true := by decide
  fun_induction base64 data with
  | case1 => exact fun b hb => absurd hb List.not_mem_nil
  | case2 a triple => simp [Clean, hmod, hpad]
  | case3 a b triple => simp [Clean, hmod, hpad]
  | case4 a b c rest triple ih =>
    intro x hx
    simp only [List.mem_cons] at hx
    rcases hx with rfl | rfl | rfl | rfl | hx
    · exact hmod _
    · exact hmod _
    · exact hmod _
    · exact hmod _
    · exact ih x hx

theorem marshalPtrRawData_parse (req : RawData) :
    parse (marshalPtrRawData (some req)) = some (expectedRawData req) := by
  unfold marshalPtrRawData expectedRawData
  simp only
  split_ifs with hprintable
  · have hbuild : ((Writer.new.key (ascii "data")).string req.lpbData).str =
        build [stringMember "data" req.lpbData] := rfl
    have hdata : writerEscape.readBack req.lpbData = some (chars req.lpbData) := by
      rw [readBack_iff_isClean]
      exact fun b hb => isClean_of_isPrintable (List.all_eq_true.mp hprintable b hb)
    rw [hbuild, parse_build ["data"] rfl (by decide)]
    · simp [readAll, stringMember, hdata]
    · intro m hm
      rw [List.mem_singleton.mp hm]
      exact legible_string (readBack_name (by decide)) _
  · have hbuild : ((((Writer.new.key (ascii "data")).string []).key
        (ascii "dataBase64")).string (base64 req.lpbData)).str =
        build [stringMember "data" [], stringMember "dataBase64" (base64 req.lpbData)] := rfl
    have hempty : writerEscape.readBack [] = some [] := rfl
    have hdata : writerEscape.readBack (base64 req.lpbData) =
        some (chars (base64 req.lpbData)) := by
      rw [readBack_iff_isClean]
      exact clean_base64 _
    rw [hbuild, parse_build ["data", "dataBase64"] rfl (by decide)]
    · simp [readAll, stringMember, hempty, hdata]
    · intro m hm
      rcases List.mem_pair.mp hm with rfl | rfl
      · exact legible_string (readBack_name (by decide)) _
      · exact legible_string (readBack_name (by decide)) _

end AtmXfs.Dll
