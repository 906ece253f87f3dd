import AtmXfs.Dll.IniConfig

namespace AtmXfs.Dll.Ini

open Js JsonText
open Framing (Bytes)

/-- The lines `key=value` of a file, each under the section that is open there. -/
def entries (sect : Bytes) : List Bytes → List Entry
  | [] => []
  | raw :: rest =>
    match lineOf raw with
    | .skipped => entries sect rest
    | .header name => entries name rest
    | .pair rawKey val => ⟨sect, rawKey, val⟩ :: entries sect rest

def fileEntries : Option Bytes → List Entry
  | none => []
  | some text => entries [] (text.splitOn 0x0a)

theorem cfg_readLines (lines : List Bytes) (s : Loading) :
    (lines.foldl readLine s).cfg = (entries s.sect lines).foldl IniConfig.assign s.cfg := by
  induction lines generalizing s with
  | nil => rfl
  | cons raw rest ih =>
    rw [List.foldl_cons, ih, readLine, entries]
    cases lineOf raw with
    | skipped => rfl
    | header name => rfl
    | pair rawKey val => rfl

/-- Reading the file is making its assignments in order. -/
theorem loadIni_entries (file : Option Bytes) :
    loadIni file = (fileEntries file).foldl IniConfig.assign .defaults := by
  cases file with
  | none => rfl
  | some text => exact cfg_readLines _ _

def Entry.Names (e : Entry) (key : Bytes) : Prop := e.sect = ascii "BRIDGE" ∧ e.key = key

instance (e : Entry) (key : Bytes) : Decidable (e.Names key) :=
  inferInstanceAs (Decidable (_ ∧ _))

/-- The values that the section `[Bridge]` gives a key. -/
def values (key : Bytes) (es : List Entry) : List Bytes :=
  (es.filter fun e => e.Names key).map Entry.val

/-- Neither `trim` nor a comment cuts it off. -/
def isPlain (b : UInt8) : Bool := ¬isTrimmed b ∧ b ≠ 0x3b ∧ b ≠ 0x23

def Plain (s : Bytes) : Prop := s.all isPlain = true

instance (s : Bytes) : Decidable (Plain s) := inferInstanceAs (Decidable (_ = _))

theorem plain_iff {s : Bytes} :
    Plain s ↔ ∀ b ∈ s, isTrimmed b = false ∧ b ≠ 0x3b ∧ b ≠ 0x23 := by
  simp [Plain, isPlain]

theorem trim_plain {s : Bytes} (hs : Plain s) : trim s = s := by
  have hdrop : s.dropWhile isTrimmed = s := by
    refine List.dropWhile_eq_self_iff.mpr fun hl => ?_
    simp [(plain_iff.mp hs _ (List.getElem_mem hl)).1]
  have hrdrop : s.rdropWhile isTrimmed = s := by
    refine List.rdropWhile_eq_self_iff.mpr fun hl => ?_
    simp [(plain_iff.mp hs _ (List.getLast_mem hl)).1]
  rw [trim, hdrop, hrdrop]

theorem uncommented_plain {s : Bytes} (hs : Plain s) : uncommented s = s := by
  have hsemi : s.takeWhile (· ≠ 0x3b) = s :=
    List.takeWhile_eq_self_iff.mpr fun b hb => by simpa using (plain_iff.mp hs b hb).2.1
  have hhash : s.takeWhile (· ≠ 0x23) = s :=
    List.takeWhile_eq_self_iff.mpr fun b hb => by simpa using (plain_iff.mp hs b hb).2.2
  rw [uncommented, hsemi, hhash, trim_plain hs]

/-- What can be written as a line of its own under its section. -/
structure Entry.Clean (e : Entry) : Prop where
  sect : Plain e.sect
  upper : toUpper e.sect = e.sect
  key : Plain e.rawKey
  named : e.rawKey ≠ []
  opens : e.rawKey.head? ≠ some 0x5b
  separated : 0x3d ∉ e.rawKey
  val : Plain e.val

def Entry.header (e : Entry) : Bytes := (0x5b :: e.sect) ++ [0x5d]

def Entry.line (e : Entry) : Bytes := e.rawKey ++ 0x3d :: e.val

theorem plain_header {e : Entry} (he : e.Clean) : Plain e.header := by
  have hsect : e.sect.all isPlain = true := he.sect
  have hopen : isPlain 0x5b = true := by decide
  have hclose : isPlain 0x5d = true := by decide
  simp [Plain, Entry.header, hsect, hopen, hclose]

theorem plain_line {e : Entry} (he : e.Clean) : Plain e.line := by
  have hkey : e.rawKey.all isPlain = true := he.key
  have hval : e.val.all isPlain = true := he.val
  have hequals : isPlain 0x3d = true := by decide
  simp [Plain, Entry.line, hkey, hval, hequals]

theorem lineOf_header {e : Entry} (he : e.Clean) : lineOf e.header = .header e.sect := by
  have hne : e.header ≠ [] := List.cons_ne_nil _ _
  have hhead : e.header.head? = some 0x5b := rfl
  have hlast : e.header.getLast? = some 0x5d := List.getLast?_concat ..
  have hname : e.header.tail.dropLast = e.sect := List.dropLast_concat
  simp only [lineOf, uncommented_plain (plain_header he), hne, hhead, hlast, hname, he.upper,
    and_self, if_true, if_false]

theorem lineOf_line {e : Entry} (he : e.Clean) : lineOf e.line = .pair e.rawKey e.val := by
  have hhead : e.line.head? ≠ some 0x5b := by
    rw [Entry.line, List.head?_append_of_ne_nil _ he.named]
    exact he.opens
  have hall : ∀ b ∈ e.rawKey, decide (b ≠ 0x3d) = true := by
    intro b hb
    have hne : b ≠ 0x3d := fun h => he.separated (h ▸ hb)
    simpa using hne
  have htake : e.line.takeWhile (· ≠ 0x3d) = e.rawKey := by
    rw [Entry.line, List.takeWhile_append_of_pos hall, List.takeWhile_cons_of_neg (by simp),
      List.append_nil]
  have hdrop : e.line.dropWhile (· ≠ 0x3d) = 0x3d :: e.val := by
    rw [Entry.line, List.dropWhile_append_of_pos hall, List.dropWhile_cons_of_neg (by simp)]
  have hne : e.line ≠ [] := by simp [Entry.line]
  have hmem : 0x3d ∈ e.line := by simp [Entry.line]
  simp only [lineOf, uncommented_plain (plain_line he), hne, hhead, hmem, htake, hdrop,
    trim_plain he.key, trim_plain he.val, he.named, List.tail_cons, not_true_eq_false, false_and,
    if_false]

def writeIni (es : List Entry) : Bytes :=
  [0x0a].intercalate (es.flatMap fun e => [e.header, e.line])

theorem entries_lines {es : List Entry} (hes : ∀ e ∈ es, e.Clean) (sect : Bytes) :
    entries sect (es.flatMap fun e => [e.header, e.line]) = es := by
  induction es generalizing sect with
  | nil => rfl
  | cons e es ih =>
    have he := hes e (List.mem_cons_self ..)
    have hrest := ih fun d hd => hes d (List.mem_cons_of_mem _ hd)
    simp only [List.flatMap_cons, List.cons_append, List.nil_append, entries, lineOf_header he,
      lineOf_line he, hrest]

/-- What is written into a file is read from it. -/
theorem fileEntries_writeIni {es : List Entry} (hes : ∀ e ∈ es, e.Clean) :
    fileEntries (some (writeIni es)) = es := by
  have hsep : ∀ l ∈ es.flatMap fun e => [e.header, e.line], (0x0a : UInt8) ∉ l := by
    intro l hl hmem
    obtain ⟨e, he, hl⟩ := List.mem_flatMap.mp hl
    have hplain : Plain l := by
      rcases List.mem_pair.mp hl with rfl | rfl
      · exact plain_header (hes e he)
      · exact plain_line (hes e he)
    have hnewline := (plain_iff.mp hplain _ hmem).1
    exact absurd hnewline (by decide)
  cases es with
  | nil => rfl
  | cons e es =>
    rw [fileEntries, writeIni, List.splitOn_intercalate _ hsep (by simp), entries_lines hes]

/-- A number that only the lines of its own key set, exactly where they fit. -/
structure Setting (β : Type) where
  key : Bytes
  get : IniConfig → β
  parse : Bytes → β → β
  assigned : ∀ (cfg : IniConfig) (e : Entry),
    get (cfg.assign e) = if e.Names key then parse e.val (get cfg) else get cfg
  toNat : β → Nat
  bits : Nat
  exact : ∀ {v : Bytes}, Fits bits v → ∀ b, toNat (parse v b) = iniNumber v

def bridgePort : Setting UInt16 where
  key := ascii "PORT"
  get := IniConfig.bridgePort
  parse := parseU16
  assigned cfg e := by
    have hhost : ascii "PORT" ≠ ascii "HOST" := by decide
    unfold IniConfig.assign Entry.Names
    split_ifs <;> simp_all
  toNat := UInt16.toNat
  bits := 16
  exact := parseU16_fits

def connectTimeoutMs : Setting UInt32 where
  key := ascii "CONNECTTIMEOUTMS"
  get := IniConfig.connectTimeoutMs
  parse := parseU32
  assigned cfg e := by
    have hhost : ascii "CONNECTTIMEOUTMS" ≠ ascii "HOST" := by decide
    have hport : ascii "CONNECTTIMEOUTMS" ≠ ascii "PORT" := by decide
    unfold IniConfig.assign Entry.Names
    split_ifs <;> simp_all
  toNat := UInt32.toNat
  bits := 32
  exact := parseU32_fits

def requestTimeoutMs : Setting UInt32 where
  key := ascii "REQUESTTIMEOUTMS"
  get := IniConfig.requestTimeoutMs
  parse := parseU32
  assigned cfg e := by
    have hhost : ascii "REQUESTTIMEOUTMS" ≠ ascii "HOST" := by decide
    have hport : ascii "REQUESTTIMEOUTMS" ≠ ascii "PORT" := by decide
    have hconnect : ascii "REQUESTTIMEOUTMS" ≠ ascii "CONNECTTIMEOUTMS" := by decide
    unfold IniConfig.assign Entry.Names
    split_ifs <;> simp_all
  toNat := UInt32.toNat
  bits := 32
  exact := parseU32_fits

namespace Setting

variable {β : Type} (setting : Setting β)

theorem get_assigns (es : List Entry) (cfg : IniConfig) :
    setting.get (es.foldl IniConfig.assign cfg) =
      (values setting.key es).foldl (fun b v => setting.parse v b) (setting.get cfg) := by
  induction es generalizing cfg with
  | nil => rfl
  | cons e es ih =>
    rw [List.foldl_cons, ih, setting.assigned, values, values, List.filter_cons]
    by_cases he : e.Names setting.key
    · simp [he]
    · simp [he]

/-- Whatever else a file holds, a setting comes from the values of its own key alone. -/
theorem get_loadIni (file : Option Bytes) :
    setting.get (loadIni file) =
      (values setting.key (fileEntries file)).foldl (fun b v => setting.parse v b)
        (setting.get .defaults) := by
  rw [loadIni_entries, setting.get_assigns]

end Setting

/-- A file that is written entry by entry assigns these entries in order. A setting comes from the
values of its own key alone, one after the other from the default, and it is the last of them if
that fits. -/
theorem settings_written {β : Type} (setting : Setting β) {es : List Entry}
    (hes : ∀ e ∈ es, e.Clean) :
    loadIni (some (writeIni es)) = es.foldl IniConfig.assign .defaults ∧
      setting.get (loadIni (some (writeIni es))) =
        (values setting.key es).foldl (fun b v => setting.parse v b) (setting.get .defaults) ∧
      ∀ v, (values setting.key es).getLast? = some v → Fits setting.bits v →
        setting.toNat (setting.get (loadIni (some (writeIni es)))) = iniNumber v := by
  have hread : setting.get (loadIni (some (writeIni es))) =
      (values setting.key es).foldl (fun b v => setting.parse v b) (setting.get .defaults) := by
    rw [setting.get_loadIni, fileEntries_writeIni hes]
  refine ⟨by rw [loadIni_entries, fileEntries_writeIni hes], hread, fun v hlast hv => ?_⟩
  obtain ⟨vs, hvs⟩ := List.getLast?_eq_some_iff.mp hlast
  rw [hread, hvs, List.foldl_concat]
  exact setting.exact hv _

def sampleEntries : List Entry :=
  [⟨ascii "BRIDGE", ascii "Port", ascii "99999"⟩, ⟨ascii "TRACE", ascii "Level", ascii "debug"⟩,
    ⟨ascii "BRIDGE", ascii "port", ascii "9301"⟩]

theorem settings_written_port :
    bridgePort.toNat (bridgePort.get (loadIni (some (writeIni sampleEntries)))) = 9301 :=
  (settings_written bridgePort (List.forall_mem_cons.mpr ⟨by constructor <;> decide,
    List.forall_mem_cons.mpr ⟨by constructor <;> decide,
      List.forall_mem_singleton.mpr (by constructor <;> decide)⟩⟩)).2.2 (ascii "9301")
    (by decide) ⟨by decide, by decide, by decide⟩

end AtmXfs.Dll.Ini
