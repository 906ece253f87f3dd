import AtmXfs.Codegen.Contract
import Mathlib.Data.List.Nodup

namespace AtmXfs.Codegen

open Blocks

def tsEntry : Template := ⟨"  ".toList, ':', " '".toList, '\x27', ",".toList⟩

def tsQuoted : Template := ⟨"  '".toList, '\x27', ": '".toList, '\x27', ",".toList⟩

def tsNumber : Template := ⟨"  ".toList, ':', " ".toList, ',', []⟩

def cppString : Template :=
  ⟨"constexpr std::string_view ".toList, ' ', "= \"".toList, '"', ";".toList⟩

def cppClass : Template :=
  ⟨"constexpr EventClass ".toList, ' ', "= EventClass::".toList, ';', []⟩

def cppInt32 : Template := ⟨"constexpr std::int32_t ".toList, ' ', "= ".toList, ';', []⟩

/-- The entries of an exported object of a TypeScript file. -/
def tsObject (name : List Char) (t : Template) (file : List Char) : List (List Char × List Char) :=
  (block (Ts.opensObject name) Ts.closesObject (lines file)).filterMap t.read

/-- The constants of a namespace of a header. -/
def cppNamespace (name : List Char) (t : Template) (file : List Char) :
    List (List Char × List Char) :=
  (block (Cpp.opensNamespace name) (Cpp.closesNamespace name) (lines file)).filterMap t.read

def identChar (c : Char) : Bool := c.isAlphanum || c = '_'

def Identifier (s : List Char) : Prop := ∀ c ∈ s, identChar c = true

/-- What can stand in a string literal of both languages as it is. -/
def Quotable (s : List Char) : Prop :=
  ∀ c ∈ s, c ≠ '\n' ∧ c ≠ '\r' ∧ c ≠ '\x27' ∧ c ≠ '"' ∧ c ≠ '\\'

def OneLine (s : List Char) : Prop := ∀ c ∈ s, c ≠ '\n' ∧ c ≠ '\r'

structure ServiceDef.Sound (svc : ServiceDef) : Prop where
  description : OneLine svc.description
  hService : Quotable svc.hServiceDefault
  commands : ∀ e ∈ svc.commands, Identifier e.1 ∧ Quotable e.2
  events : ∀ e ∈ svc.events, Identifier e.1 ∧ Quotable e.2.code ∧ Quotable e.2.cls

/-- The preamble is made of comments; names are identifiers, codes can be quoted, and no two
services differ in upper and lower case only. -/
structure XfsContract.Sound (spec : XfsContract) : Prop where
  plain : '\r' ∉ spec.preamble
  comments : ∀ l ∈ lines (Ts.trimEnd spec.preamble), l.head? ≠ some 'e'
  results : ∀ e ∈ spec.resultCodes, Identifier e.1
  ids : ∀ e ∈ spec.services, Identifier e.1
  services : ∀ e ∈ spec.services, e.2.Sound
  distinct : (spec.services.map fun e => toLowerCase e.1).Nodup

instance (s : List Char) : Decidable (Identifier s) := List.decidableBAll _ s

instance (s : List Char) : Decidable (Quotable s) := List.decidableBAll _ s

instance (s : List Char) : Decidable (OneLine s) := List.decidableBAll _ s

theorem OneLine.append {s s' : List Char} (h : OneLine s) (h' : OneLine s') : OneLine (s ++ s') :=
  List.forall_mem_append.mpr ⟨h, h'⟩

theorem oneLine_nil : OneLine [] := nofun

theorem Quotable.oneLine {s : List Char} (h : Quotable s) : OneLine s :=
  fun c hc => ⟨(h c hc).1, (h c hc).2.1⟩

/-- The characters of an identifier are ASCII, and none of the separators. -/
theorem identChar_spec {c : Char} (h : identChar c = true) :
    (c ≠ '\n' ∧ c ≠ '\r') ∧ (c ≠ ':' ∧ c ≠ ' ') ∧ identChar c.toLower = true ∧
      (c.toUpper ≠ '\n' ∧ c.toUpper ≠ '\r') := by
  have hlt : c.toNat < 128 := by
    delta identChar Char.isAlphanum Char.isAlpha Char.isUpper Char.isLower Char.isDigit at h
    simp only [Bool.or_eq_true, Bool.and_eq_true, decide_eq_true_eq] at h
    simp only [UInt32.le_iff_toNat_le] at h
    rcases h with ((h | h) | h) | rfl
    · exact Nat.lt_of_le_of_lt h.2 (by decide)
    · exact Nat.lt_of_le_of_lt h.2 (by decide)
    · exact Nat.lt_of_le_of_lt h.2 (by decide)
    · decide
  have hall : ∀ n < 128, identChar (Char.ofNat n) = true →
      (Char.ofNat n ≠ '\n' ∧ Char.ofNat n ≠ '\r') ∧ (Char.ofNat n ≠ ':' ∧ Char.ofNat n ≠ ' ') ∧
        identChar (Char.ofNat n).toLower = true ∧
        ((Char.ofNat n).toUpper ≠ '\n' ∧ (Char.ofNat n).toUpper ≠ '\r') := by decide +kernel
  have hc := hall c.toNat hlt
  rw [Char.ofNat_toNat] at hc
  exact hc h

namespace Identifier

variable {s : List Char}

theorem oneLine (h : Identifier s) : OneLine s := fun c hc => (identChar_spec (h c hc)).1

theorem not_colon (h : Identifier s) : ':' ∉ s := fun hc => (identChar_spec (h _ hc)).2.1.1 rfl

theorem not_space (h : Identifier s) : ' ' ∉ s := fun hc => (identChar_spec (h _ hc)).2.1.2 rfl

theorem toLowerCase (h : Identifier s) : Identifier (toLowerCase s) := by
  intro c hc
  obtain ⟨d, hd, rfl⟩ := List.mem_map.mp hc
  exact (identChar_spec (h d hd)).2.2.1

theorem pascal (h : Identifier s) : OneLine (Ts.pascal s) := by
  cases s with
  | nil => exact oneLine_nil
  | cons c cs =>
    obtain ⟨hc, hrest⟩ := List.forall_mem_cons.mp h
    intro d hd
    rcases List.mem_cons.mp hd with rfl | hd
    · exact (identChar_spec hc).2.2.2
    · exact (Identifier.toLowerCase hrest).oneLine d hd

end Identifier

theorem normalized_eq {s : List Char} (h : '\r' ∉ s) : normalized s = s := by
  induction s with
  | nil => rfl
  | cons c cs ih =>
    obtain ⟨hc, hrest⟩ : '\r' ≠ c ∧ '\r' ∉ cs := by simpa using h
    rw [normalized, ih hrest]
    intro cs' heq
    exact absurd heq.symm hc

theorem mem_unlines {ls : List Line} {c : Char} (h : c ∈ unlines ls) :
    c = '\n' ∨ ∃ l ∈ ls, c ∈ l := by
  induction ls with
  | nil => simp [unlines, List.intercalate] at h
  | cons l ls ih =>
    cases ls with
    | nil =>
      refine .inr ⟨l, List.mem_cons_self, ?_⟩
      simpa [unlines, List.intercalate] using h
    | cons l' ls =>
      rw [unlines_cons_cons] at h
      rcases List.mem_append.mp h with h | h
      · exact .inr ⟨l, List.mem_cons_self, h⟩
      · rcases List.mem_cons.mp h with h | h
        · exact .inl h
        · rcases ih h with h | ⟨m, hm, hc⟩
          · exact .inl h
          · exact .inr ⟨m, List.mem_cons_of_mem _ hm, hc⟩

/-- A file is written as its lines, the first of which may be a text of several. -/
theorem lines_file {p : List Char} {rest : List Line} (hp : '\r' ∉ p) (hne : rest ≠ [])
    (hrest : ∀ l ∈ rest, OneLine l) :
    lines (normalized (unlines (p :: rest))) = lines p ++ rest := by
  have hcr : '\r' ∉ unlines (p :: rest) := by
    intro h
    rcases mem_unlines h with h | ⟨l, hl, hc⟩
    · exact absurd h (by decide)
    · rcases List.mem_cons.mp hl with rfl | hl
      · exact hp hc
      · exact (hrest l hl _ hc).2 rfl
  rw [normalized_eq hcr, lines_unlines_cons p hne,
    lines_unlines hne fun l hl hc => (hrest l hl _ hc).1 rfl]

/-- An object is read back from the lines of its entries. -/
theorem filterMap_read {β : Type} (t : Template) (entries : List β) {line : β → Line}
    {part part' : β → List Char} (hline : ∀ e ∈ entries, line e = t.write (part e) (part' e))
    (hpart : ∀ e ∈ entries, t.stop ∉ part e ∧ t.stop' ∉ part' e) :
    (entries.map line).filterMap t.read = entries.map fun e => (part e, part' e) := by
  rw [List.filterMap_map, ← List.filterMap_eq_map]
  apply List.filterMap_congr
  intro e he
  obtain ⟨h, h'⟩ := hpart e he
  rw [Function.comp_apply, hline e he, t.read_write h h']
  rfl

theorem head_append {a b : List Char} {c : Char} (h : a.head? = some c) :
    (a ++ b).head? = some c := by
  rw [List.head?_append, h, Option.some_or]

theorem last_append {a b : List Char} {c : Char} (h : b.getLast? = some c) :
    (a ++ b).getLast? = some c := by
  rw [List.getLast?_append, h, Option.some_or]

/-- The line opens no object. -/
def Shut (l : Line) : Prop := l.head? ≠ some 'e' ∨ l.getLast? = some ';'

theorem Shut.of_head {l : Line} (c : Char) (h : l.head? = some c) (hc : c ≠ 'e') : Shut l :=
  .inl fun heq => hc (Option.some.inj (h.symm.trans heq))

theorem shut_nil : Shut [] := .inl nofun

theorem opensObject_ne {l : Line} (h : Shut l) (name : List Char) : Ts.opensObject name ≠ l := by
  intro heq
  rcases h with h | h
  · have hhead : (Ts.opensObject name).head? = some 'e' := head_append (head_append (by decide))
    exact h (heq ▸ hhead)
  · have hlast : (Ts.opensObject name).getLast? = some '\x7b' := last_append (by decide)
    rw [heq, h] at hlast
    exact absurd hlast (by decide)

theorem entry_eq (name code : List Char) : Ts.entry name code = tsEntry.write name code :=
  tsEntry.append_eq_write (by decide) (by decide) name code

section

variable {id : List Char} {svc : ServiceDef}

theorem shut_beforeCommands : ∀ l ∈ Ts.beforeCommands id svc, Shut l := by
  intro l hl
  simp only [Ts.beforeCommands, List.mem_cons, List.not_mem_nil, or_false] at hl
  rcases hl with rfl | rfl | rfl | rfl | rfl | rfl
  · exact shut_nil
  · exact .of_head '/' (head_append (head_append (head_append (head_append (by decide)))))
      (by decide)
  · exact shut_nil
  · exact .inr (last_append (by decide))
  · exact shut_nil
  · exact .of_head '/' (head_append (head_append (by decide))) (by decide)

theorem shut_beforeEvents : ∀ l ∈ Ts.beforeEvents id, Shut l := by
  intro l hl
  simp only [Ts.beforeEvents, List.mem_cons, List.not_mem_nil, or_false] at hl
  rcases hl with rfl | rfl | rfl | rfl
  · exact shut_nil
  · exact .inr (last_append (by decide))
  · exact shut_nil
  · exact .of_head '/' (head_append (head_append (by decide))) (by decide)

theorem shut_beforeClasses : ∀ l ∈ Ts.beforeClasses id, Shut l := by
  intro l hl
  simp only [Ts.beforeClasses, List.mem_cons, List.not_mem_nil, or_false] at hl
  rcases hl with rfl | rfl | rfl | rfl
  · exact shut_nil
  · exact .inr (last_append (by decide))
  · exact shut_nil
  · exact .of_head '/' (head_append (head_append (by decide))) (by decide)

theorem oneLine_beforeCommands (hid : Identifier id) (hsvc : svc.Sound) :
    ∀ l ∈ Ts.beforeCommands id svc, OneLine l := by
  have hname := hid.oneLine
  intro l hl
  simp only [Ts.beforeCommands, List.mem_cons, List.not_mem_nil, or_false] at hl
  rcases hl with rfl | rfl | rfl | rfl | rfl | rfl
  · exact oneLine_nil
  · exact .append (.append (.append (.append (by decide) hname) (by decide)) hsvc.description)
      (by decide)
  · exact oneLine_nil
  · exact .append (.append (.append (.append (by decide) hname) (by decide)) hsvc.hService.oneLine)
      (by decide)
  · exact oneLine_nil
  · exact .append (.append (by decide) hname) (by decide)

theorem oneLine_beforeEvents (hid : Identifier id) : ∀ l ∈ Ts.beforeEvents id, OneLine l := by
  have hname := hid.oneLine
  intro l hl
  simp only [Ts.beforeEvents, List.mem_cons, List.not_mem_nil, or_false] at hl
  rcases hl with rfl | rfl | rfl | rfl
  · exact oneLine_nil
  · exact .append (.append (.append (.append (.append (.append (by decide) hid.pascal) (by decide))
      hname) (by decide)) hname) (by decide)
  · exact oneLine_nil
  · exact .append (.append (by decide) hname) (by decide)

theorem oneLine_beforeClasses (hid : Identifier id) : ∀ l ∈ Ts.beforeClasses id, OneLine l := by
  have hname := hid.oneLine
  intro l hl
  simp only [Ts.beforeClasses, List.mem_cons, List.not_mem_nil, or_false] at hl
  rcases hl with rfl | rfl | rfl | rfl
  · exact oneLine_nil
  · exact .append (.append (.append (.append (.append (.append (by decide) hid.pascal) (by decide))
      hname) (by decide)) hname) (by decide)
  · exact oneLine_nil
  · exact .append (.append (by decide) hname) (by decide)

theorem oneLine_entry {name code : List Char} (hname : Identifier name) (hcode : Quotable code) :
    OneLine (Ts.entry name code) :=
  .append (.append (.append (.append (by decide) hname.oneLine) (by decide)) hcode.oneLine)
    (by decide)

theorem oneLine_opensObject {name : List Char} (h : OneLine name) :
    OneLine (Ts.opensObject name) := .append (.append (by decide) h) (by decide)

/-- An object of a file, between shut lines that hold none of its name. -/
theorem tsObject_eq {file : List Char} {name : List Char} {t : Template} {before body : List Line}
    (after : List Line)
    (hfile : lines file = before ++ Ts.opensObject name :: (body ++ Ts.closesObject :: after))
    (hbefore : ∀ l ∈ before, Ts.opensObject name ≠ l) (hbody : ∀ l ∈ body, l.head? = some ' ') :
    tsObject name t file = body.filterMap t.read := by
  rw [tsObject, hfile, block_eq]
  · exact fun hmem => hbefore _ hmem rfl
  · intro hmem
    exact absurd (hbody _ hmem) (by decide)

theorem opensObject_inj {name name' : List Char} (h : Ts.opensObject name = Ts.opensObject name') :
    name = name' :=
  List.append_cancel_left (List.append_cancel_right h)

/-- The quoted lines of the event classes. -/
def Ts.classLine (evt : EventDef) : Line :=
  "  '".toList ++ evt.code ++ "': '".toList ++ evt.cls ++ "',".toList

theorem classLine_eq (evt : EventDef) : Ts.classLine evt = tsQuoted.write evt.code evt.cls :=
  tsQuoted.append_eq_write (by decide) (by decide) evt.code evt.cls

/-- The three objects of a service's file. -/
theorem tsObjects {preamble : List Char} (hplain : '\r' ∉ preamble)
    (hcomments : ∀ l ∈ lines (Ts.trimEnd preamble), l.head? ≠ some 'e') (hid : Identifier id)
    (hsvc : svc.Sound) :
    let file := normalized (Ts.emitService id svc preamble)
    tsObject (id ++ "_CMD".toList) tsEntry file = svc.commands ∧
      tsObject (id ++ "_EVT".toList) tsEntry file = svc.events.map (fun e => (e.1, e.2.code)) ∧
      tsObject (id ++ "_EVT_CLASS".toList) tsQuoted file =
        svc.events.map fun e => (e.2.code, e.2.cls) := by
  intro file
  let entries := svc.commands.map fun e => Ts.entry e.1 e.2
  let events := svc.events.map fun e => Ts.entry e.1 e.2.code
  let classes := svc.events.map fun e => Ts.classLine e.2
  have hlines : lines file = lines (Ts.trimEnd preamble) ++ (Ts.beforeCommands id svc ++
      Ts.opensObject (id ++ "_CMD".toList) :: (entries ++ Ts.closesObject :: (Ts.beforeEvents id ++
      Ts.opensObject (id ++ "_EVT".toList) :: (events ++ Ts.closesObject :: (Ts.beforeClasses id ++
      Ts.opensObject (id ++ "_EVT_CLASS".toList) :: (classes ++ [Ts.closesObject, []])))))) := by
    apply lines_file
    · exact fun h => hplain ((List.rdropWhile_prefix _ _).subset h)
    · simp
    · have hcloses : OneLine Ts.closesObject := by decide
      have hopens : ∀ name : List Char, OneLine name → OneLine (Ts.opensObject (id ++ name)) :=
        fun name h => oneLine_opensObject (hid.oneLine.append h)
      have hentries : ∀ l ∈ entries, OneLine l := by
        intro l hl
        obtain ⟨e, he, rfl⟩ := List.mem_map.mp hl
        exact oneLine_entry (hsvc.commands e he).1 (hsvc.commands e he).2
      have hevents : ∀ l ∈ events, OneLine l := by
        intro l hl
        obtain ⟨e, he, rfl⟩ := List.mem_map.mp hl
        exact oneLine_entry (hsvc.events e he).1 (hsvc.events e he).2.1
      have hclasses : ∀ l ∈ classes, OneLine l := by
        intro l hl
        obtain ⟨e, he, rfl⟩ := List.mem_map.mp hl
        exact .append (.append (.append (.append (by decide) (hsvc.events e he).2.1.oneLine)
          (by decide)) (hsvc.events e he).2.2.oneLine) (by decide)
      simp only [List.forall_mem_append, List.forall_mem_cons]
      exact ⟨oneLine_beforeCommands hid hsvc, hopens _ (by decide), hentries, hcloses,
        oneLine_beforeEvents hid, hopens _ (by decide), hevents, hcloses,
        oneLine_beforeClasses hid, hopens _ (by decide), hclasses, hcloses, oneLine_nil, nofun⟩
  have hpreamble : ∀ l ∈ lines (Ts.trimEnd preamble), Shut l := fun l hl => .inl (hcomments l hl)
  have hspaced : ∀ name code, (Ts.entry name code).head? = some ' ' := fun name code =>
    head_append (head_append (head_append (head_append (by decide))))
  have hentries : ∀ l ∈ entries, l.head? = some ' ' := by
    intro l hl
    obtain ⟨e, -, rfl⟩ := List.mem_map.mp hl
    exact hspaced _ _
  have hevents : ∀ l ∈ events, l.head? = some ' ' := by
    intro l hl
    obtain ⟨e, -, rfl⟩ := List.mem_map.mp hl
    exact hspaced _ _
  have hclasses : ∀ l ∈ classes, l.head? = some ' ' := by
    intro l hl
    obtain ⟨e, -, rfl⟩ := List.mem_map.mp hl
    exact head_append (head_append (head_append (head_append (by decide))))
  have hshut : ∀ l : Line, l.head? = some ' ' → Shut l := fun l hl => .of_head ' ' hl (by decide)
  have hcloses : Shut Ts.closesObject := .of_head '\x7d' (by decide) (by decide)
  have hother : ∀ name name' : List Char, name ≠ name' →
      Ts.opensObject (id ++ name) ≠ Ts.opensObject (id ++ name') := fun name name' hne heq =>
    hne (List.append_cancel_left (opensObject_inj heq))
  refine ⟨?_, ?_, ?_⟩
  · rw [tsObject_eq _ (hlines.trans (List.append_assoc ..).symm) ?_ hentries]
    · exact (filterMap_read tsEntry svc.commands (fun e _ => entry_eq e.1 e.2) fun e he =>
        ⟨(hsvc.commands e he).1.not_colon, fun hq => ((hsvc.commands e he).2 _ hq).2.2.1 rfl⟩).trans
          (List.map_id _)
    · intro l hl
      rcases List.mem_append.mp hl with hl | hl
      · exact opensObject_ne (hpreamble l hl) _
      · exact opensObject_ne (shut_beforeCommands l hl) _
  · have hfile : lines file = (lines (Ts.trimEnd preamble) ++ (Ts.beforeCommands id svc ++
        Ts.opensObject (id ++ "_CMD".toList) :: (entries ++ Ts.closesObject ::
          Ts.beforeEvents id))) ++ Ts.opensObject (id ++ "_EVT".toList) :: (events ++
            Ts.closesObject :: (Ts.beforeClasses id ++ Ts.opensObject (id ++ "_EVT_CLASS".toList) ::
              (classes ++ [Ts.closesObject, []]))) := by
      rw [hlines]
      simp only [List.append_assoc, List.cons_append]
    rw [tsObject_eq _ hfile ?_ hevents]
    · exact filterMap_read tsEntry svc.events (fun e _ => entry_eq e.1 e.2.code) fun e he =>
        ⟨(hsvc.events e he).1.not_colon, fun hq => ((hsvc.events e he).2.1 _ hq).2.2.1 rfl⟩
    · simp only [List.forall_mem_append, List.forall_mem_cons]
      exact ⟨fun l hl => opensObject_ne (hpreamble l hl) _,
        fun l hl => opensObject_ne (shut_beforeCommands l hl) _, hother _ _ (by decide),
        fun l hl => opensObject_ne (hshut l (hentries l hl)) _, opensObject_ne hcloses _,
        fun l hl => opensObject_ne (shut_beforeEvents l hl) _⟩
  · have hfile : lines file = (lines (Ts.trimEnd preamble) ++ (Ts.beforeCommands id svc ++
        Ts.opensObject (id ++ "_CMD".toList) :: (entries ++ Ts.closesObject ::
          (Ts.beforeEvents id ++ Ts.opensObject (id ++ "_EVT".toList) :: (events ++
            Ts.closesObject :: Ts.beforeClasses id))))) ++
              Ts.opensObject (id ++ "_EVT_CLASS".toList) ::
                (classes ++ Ts.closesObject :: [[]]) := by
      rw [hlines]
      simp only [List.append_assoc, List.cons_append]
    rw [tsObject_eq _ hfile ?_ hclasses]
    · exact filterMap_read tsQuoted svc.events (fun e _ => classLine_eq e.2) fun e he =>
        ⟨fun hq => ((hsvc.events e he).2.1 _ hq).2.2.1 rfl,
          fun hq => ((hsvc.events e he).2.2 _ hq).2.2.1 rfl⟩
    · simp only [List.forall_mem_append, List.forall_mem_cons]
      exact ⟨fun l hl => opensObject_ne (hpreamble l hl) _,
        fun l hl => opensObject_ne (shut_beforeCommands l hl) _, hother _ _ (by decide),
        fun l hl => opensObject_ne (hshut l (hentries l hl)) _, opensObject_ne hcloses _,
        fun l hl => opensObject_ne (shut_beforeEvents l hl) _, hother _ _ (by decide),
        fun l hl => opensObject_ne (hshut l (hevents l hl)) _, opensObject_ne hcloses _,
        fun l hl => opensObject_ne (shut_beforeClasses l hl) _⟩

end

theorem opensNamespace_inj {name name' : List Char}
    (h : Cpp.opensNamespace name = Cpp.opensNamespace name') : name = name' :=
  List.append_cancel_left (List.append_cancel_right h)

theorem head_opensNamespace (name : List Char) : (Cpp.opensNamespace name).head? = some 'n' :=
  head_append (head_append (by decide))

/-- No line before the services opens the namespace of one. -/
theorem opensNamespace_not_mem {ls : List Line} {name : List Char} (hname : ':' ∉ name)
    (h : ∀ l ∈ ls, l.head? ≠ some 'n' ∨ ':' ∈ l) : Cpp.opensNamespace name ∉ ls := by
  intro hmem
  rcases h _ hmem with hhead | hcolon
  · exact hhead (head_opensNamespace name)
  · have hstart : ':' ∉ "namespace ".toList := by decide
    have hend : ':' ∉ " \x7b".toList := by decide
    rcases List.mem_append.mp hcolon with hcolon | hcolon
    · rcases List.mem_append.mp hcolon with hcolon | hcolon
      · exact hstart hcolon
      · exact hname hcolon
    · exact hend hcolon

section

variable {services : List (List Char × ServiceDef)} {id : List Char} {svc : ServiceDef}

/-- The lines of the services, with the given ones for what they declare. -/
def declared (services : List (List Char × ServiceDef)) (body : ServiceDef → List Line) :
    List Line := services.flatMap fun e => Cpp.serviceLines e.1 e.2 (body e.2)

/-- Of a header, a namespace holds what its service declares. -/
theorem cppNamespace_eq {file : List Char} {t : Template} {head : List Line} (tail : List Line)
    {body : ServiceDef → List Line} (hfile : lines file = head ++ (declared services body ++ tail))
    (hs : (id, svc) ∈ services) (hid : Identifier id)
    (hdistinct : (services.map fun e => toLowerCase e.1).Nodup)
    (hhead : ∀ l ∈ head, l.head? ≠ some 'n' ∨ ':' ∈ l)
    (hbody : ∀ e ∈ services, ∀ l ∈ body e.2, l.head? = some 'c') :
    cppNamespace (toLowerCase id) t file = (body svc).filterMap t.read := by
  obtain ⟨before, after, rfl⟩ := List.append_of_mem hs
  have hsplit : lines file = (head ++ (declared before body ++
      ["// ".toList ++ id ++ " — ".toList ++ svc.description])) ++
        Cpp.opensNamespace (toLowerCase id) :: (body svc ++ Cpp.closesNamespace (toLowerCase id) ::
          ([] :: (declared after body ++ tail))) := by
    rw [hfile]
    simp only [declared, Cpp.serviceLines, List.flatMap_append, List.flatMap_cons,
      List.append_assoc, List.cons_append, List.nil_append]
  rw [cppNamespace, hsplit, block_eq]
  · intro hmem
    rcases List.mem_append.mp hmem with hmem | hmem
    · exact opensNamespace_not_mem hid.toLowerCase.not_colon hhead hmem
    · rcases List.mem_append.mp hmem with hmem | hmem
      · obtain ⟨e, he, hl⟩ := List.mem_flatMap.mp hmem
        have hne : toLowerCase e.1 ≠ toLowerCase id := by
          rw [List.map_append, List.map_cons] at hdistinct
          exact fun heq => (List.disjoint_of_nodup_append hdistinct) (List.mem_map_of_mem he)
            (heq ▸ List.mem_cons_self)
        have hcomment : ("// ".toList ++ e.1 ++ " — ".toList ++ e.2.description).head? = some '/' :=
          head_append (head_append (head_append (by decide)))
        have hcloses : (Cpp.closesNamespace (toLowerCase e.1)).head? = some '\x7d' :=
          head_append (by decide)
        have hopens := head_opensNamespace (toLowerCase id)
        rcases List.mem_cons.mp hl with hl | hl
        · rw [hl, hcomment] at hopens
          exact absurd hopens (by decide)
        rcases List.mem_cons.mp hl with hl | hl
        · exact hne (opensNamespace_inj hl).symm
        rcases List.mem_append.mp hl with hl | hl
        · rw [hbody e (List.mem_append_left _ he) _ hl] at hopens
          exact absurd hopens (by decide)
        rcases List.mem_cons.mp hl with hl | hl
        · rw [hl, hcloses] at hopens
          exact absurd hopens (by decide)
        · rw [List.mem_singleton.mp hl] at hopens
          exact absurd hopens (by decide)
      · have hopens := head_opensNamespace (toLowerCase id)
        have hcomment : ("// ".toList ++ id ++ " — ".toList ++ svc.description).head? = some '/' :=
          head_append (head_append (head_append (by decide)))
        rw [List.mem_singleton.mp hmem, hcomment] at hopens
        exact absurd hopens (by decide)
  · intro hmem
    have hcloses : (Cpp.closesNamespace (toLowerCase id)).head? = some '\x7d' :=
      head_append (by decide)
    rw [hbody _ hs _ hmem] at hcloses
    exact absurd hcloses (by decide)

theorem oneLine_declared {body : ServiceDef → List Line}
    (hs : ∀ e ∈ services, Identifier e.1 ∧ OneLine e.2.description)
    (hbody : ∀ e ∈ services, ∀ l ∈ body e.2, OneLine l) :
    ∀ l ∈ declared services body, OneLine l := by
  intro l hl
  obtain ⟨e, he, hl⟩ := List.mem_flatMap.mp hl
  obtain ⟨hid, hdescription⟩ := hs e he
  rcases List.mem_cons.mp hl with rfl | hl
  · exact .append (.append (.append (by decide) hid.oneLine) (by decide)) hdescription
  rcases List.mem_cons.mp hl with rfl | hl
  · exact .append (.append (by decide) hid.toLowerCase.oneLine) (by decide)
  rcases List.mem_append.mp hl with hl | hl
  · exact hbody e he l hl
  rcases List.mem_cons.mp hl with rfl | hl
  · exact .append (by decide) hid.toLowerCase.oneLine
  · rw [List.mem_singleton.mp hl]
    exact oneLine_nil

end

theorem stringView_eq (name code : List Char) :
    Cpp.stringView name code = cppString.write name code :=
  cppString.append_eq_write (by decide) (by decide) name code

theorem eventClass_eq (name enum : List Char) :
    Cpp.eventClass name enum = cppClass.write (name ++ "_CLASS".toList) enum := by
  have hmiddle : "_CLASS = EventClass::".toList = "_CLASS".toList ++ " = EventClass::".toList := by
    decide
  have hassoc : ∀ a b m m' c d : List Char, m = b ++ m' →
      a ++ name ++ m ++ c ++ d = a ++ (name ++ b) ++ m' ++ c ++ d := by
    rintro a b m m' c d rfl
    simp only [List.append_assoc]
  exact (hassoc _ _ _ _ _ _ hmiddle).trans (cppClass.append_eq_write (by decide) (by decide) _ _)

/-- The name in the header of an event class. -/
def enumOf (cls : List Char) : List Char :=
  match Cpp.eventClassEnum cls with
  | .ok enum => enum
  | .error _ => []

def eventBody (svc : ServiceDef) : List Line :=
  svc.events.flatMap fun e => [Cpp.stringView e.1 e.2.code, Cpp.eventClass e.1 (enumOf e.2.cls)]

def Known (cls : List Char) : Prop :=
  cls ∈ ["SRVE".toList, "USRE".toList, "EXEE".toList, "SYSE".toList]

theorem eventClassEnum_cases (cls : List Char) :
    (Known cls ∧ Cpp.eventClassEnum cls = .ok (enumOf cls) ∧ Identifier (enumOf cls)) ∨
      (¬Known cls ∧ ∃ e, Cpp.eventClassEnum cls = .error e) := by
  by_cases hsrve : cls = "SRVE".toList
  · subst hsrve
    exact .inl ⟨by simp only [Known, List.mem_cons, true_or], rfl, by decide⟩
  by_cases husre : cls = "USRE".toList
  · subst husre
    exact .inl ⟨by simp only [Known, List.mem_cons, true_or, or_true], rfl,
      by decide⟩
  by_cases hexee : cls = "EXEE".toList
  · subst hexee
    exact .inl ⟨by simp only [Known, List.mem_cons, true_or, or_true], rfl,
      by decide⟩
  by_cases hsyse : cls = "SYSE".toList
  · subst hsyse
    exact .inl ⟨by simp only [Known, List.mem_cons, true_or, or_true], rfl,
      by decide⟩
  refine .inr ⟨?_, "Unknown event class: " ++ String.ofList cls, ?_⟩
  · simp only [Known, List.mem_cons, List.not_mem_nil, or_false, not_or]
    exact ⟨hsrve, husre, hexee, hsyse⟩
  · unfold Cpp.eventClassEnum
    rw [if_neg hsrve, if_neg husre, if_neg hexee, if_neg hsyse]

theorem eventLines_iff (events : List (List Char × EventDef)) :
    (∀ e ∈ events, Known e.2.cls) ∧ Cpp.eventLines events = .ok (events.flatMap fun e =>
        [Cpp.stringView e.1 e.2.code, Cpp.eventClass e.1 (enumOf e.2.cls)]) ∨
      (¬∀ e ∈ events, Known e.2.cls) ∧ ∃ e, Cpp.eventLines events = .error e := by
  induction events with
  | nil => exact .inl ⟨nofun, rfl⟩
  | cons e events ih =>
    rw [List.forall_mem_cons]
    rcases eventClassEnum_cases e.2.cls with ⟨hknown, henum, -⟩ | ⟨hknown, m, henum⟩
    · rcases ih with ⟨hall, hrest⟩ | ⟨hall, m, hrest⟩
      · refine .inl ⟨⟨hknown, hall⟩, ?_⟩
        rw [Cpp.eventLines, henum, hrest]
        rfl
      · refine .inr ⟨fun h => hall h.2, m, ?_⟩
        rw [Cpp.eventLines, henum, hrest]
        rfl
    · refine .inr ⟨fun h => hknown h.1, m, ?_⟩
      rw [Cpp.eventLines, henum]

theorem eventServices_iff (services : List (List Char × ServiceDef)) :
    (∀ s ∈ services, ∀ e ∈ s.2.events, Known e.2.cls) ∧
        Cpp.eventServices services = .ok (declared services eventBody) ∨
      (¬∀ s ∈ services, ∀ e ∈ s.2.events, Known e.2.cls) ∧
        ∃ e, Cpp.eventServices services = .error e := by
  induction services with
  | nil => exact .inl ⟨nofun, rfl⟩
  | cons s services ih =>
    rw [List.forall_mem_cons]
    rcases eventLines_iff s.2.events with ⟨hknown, hlines⟩ | ⟨hknown, m, hlines⟩
    · rcases ih with ⟨hall, hrest⟩ | ⟨hall, m, hrest⟩
      · refine .inl ⟨⟨hknown, hall⟩, ?_⟩
        rw [Cpp.eventServices, hlines, hrest]
        rfl
      · refine .inr ⟨fun h => hall h.2, m, ?_⟩
        rw [Cpp.eventServices, hlines, hrest]
        rfl
    · refine .inr ⟨fun h => hknown h.1, m, ?_⟩
      rw [Cpp.eventServices, hlines]

theorem lines_header {ls : List Line} (hne : ls ≠ []) (h : ∀ l ∈ ls, OneLine l) :
    lines (normalized (unlines ls)) = ls := by
  have hcr : '\r' ∉ unlines ls := by
    intro hmem
    rcases mem_unlines hmem with hmem | ⟨l, hl, hc⟩
    · exact absurd hmem (by decide)
    · exact (h l hl _ hc).2 rfl
  rw [normalized_eq hcr, lines_unlines hne fun l hl hc => (h l hl _ hc).1 rfl]

theorem stringView_line {name code : List Char} (hname : Identifier name) (hcode : Quotable code) :
    OneLine (Cpp.stringView name code) ∧ (Cpp.stringView name code).head? = some 'c' :=
  ⟨.append (.append (.append (.append (by decide) hname.oneLine) (by decide)) hcode.oneLine)
    (by decide), head_append (head_append (head_append (head_append (by decide))))⟩

theorem eventClass_line {name enum : List Char} (hname : Identifier name)
    (henum : Identifier enum) :
    OneLine (Cpp.eventClass name enum) ∧ (Cpp.eventClass name enum).head? = some 'c' :=
  ⟨.append (.append (.append (.append (by decide) hname.oneLine) (by decide)) henum.oneLine)
    (by decide), head_append (head_append (head_append (head_append (by decide))))⟩

theorem identifier_enumOf (cls : List Char) : Identifier (enumOf cls) := by
  rcases eventClassEnum_cases cls with ⟨-, -, h⟩ | ⟨-, e, h⟩
  · exact h
  · rw [enumOf, h]
    exact nofun

theorem ServiceDef.Sound.eventBody {svc : ServiceDef} (h : svc.Sound) :
    ∀ l ∈ Codegen.eventBody svc, OneLine l ∧ l.head? = some 'c' := by
  intro l hl
  obtain ⟨e, he, hl⟩ := List.mem_flatMap.mp hl
  obtain ⟨hname, hcode, -⟩ := h.events e he
  rcases List.mem_cons.mp hl with rfl | hl
  · exact stringView_line hname hcode
  · rw [List.mem_singleton.mp hl]
    exact eventClass_line hname (identifier_enumOf _)

/-- Of the lines of events, the codes are strings and the classes are not. -/
theorem filterMap_eventBody {svc : ServiceDef} (h : svc.Sound) :
    (eventBody svc).filterMap cppString.read = svc.events.map (fun e => (e.1, e.2.code)) ∧
      (eventBody svc).filterMap cppClass.read =
        svc.events.map fun e => (e.1 ++ "_CLASS".toList, enumOf e.2.cls) := by
  have hevents := h.events
  unfold eventBody
  generalize svc.events = events at hevents
  induction events with
  | nil => exact ⟨rfl, rfl⟩
  | cons e events ih =>
    obtain ⟨⟨hname, hcode, -⟩, hrest⟩ := List.forall_mem_cons.mp hevents
    obtain ⟨hstrings, hclasses⟩ := ih hrest
    have hview : cppString.read (Cpp.stringView e.1 e.2.code) = some (e.1, e.2.code) := by
      rw [stringView_eq]
      exact cppString.read_write hname.not_space fun hq => (hcode _ hq).2.2.2.1 rfl
    have hclass : cppClass.read (Cpp.eventClass e.1 (enumOf e.2.cls)) =
        some (e.1 ++ "_CLASS".toList, enumOf e.2.cls) := by
      rw [eventClass_eq]
      refine cppClass.read_write ?_ ?_
      · exact fun hspace => (List.mem_append.mp hspace).elim hname.not_space (by decide)
      · intro hsemicolon
        have := identifier_enumOf e.2.cls _ hsemicolon
        exact absurd this (by decide)
    have hnoView : cppClass.read (Cpp.stringView e.1 e.2.code) = none := by
      rw [stringView_eq]
      exact cppClass.read_eq_none fun a b => Template.write_ne 11 (by decide) (by decide) _ _ _ _
    have hnoClass : cppString.read (Cpp.eventClass e.1 (enumOf e.2.cls)) = none := by
      rw [eventClass_eq]
      exact cppString.read_eq_none fun a b => Template.write_ne 11 (by decide) (by decide) _ _ _ _
    rw [List.flatMap_cons, List.filterMap_append, List.filterMap_append, hstrings, hclasses]
    constructor
    · rw [List.filterMap_cons_some hview, List.filterMap_cons_none hnoClass]
      rfl
    · rw [List.filterMap_cons_none hnoView, List.filterMap_cons_some hclass]
      rfl

/-- A line before the services of a header. -/
def Prologue (l : Line) : Prop := OneLine l ∧ (l.head? ≠ some 'n' ∨ ':' ∈ l)

instance (l : Line) : Decidable (Prologue l) :=
  inferInstanceAs (Decidable (OneLine l ∧ (l.head? ≠ some 'n' ∨ ':' ∈ l)))

/-- A literal is read as the list of its characters before anything is decided about it. -/
theorem preamble_lines : ∀ l ∈ Cpp.preamble, OneLine l ∧ l.head? = some '/' := by
  unfold Cpp.preamble
  repeat rw [String.toList_ofList]
  decide +kernel

theorem prologue_preamble : ∀ l ∈ Cpp.preamble, Prologue l := by
  intro l hl
  obtain ⟨hline, hhead⟩ := preamble_lines l hl
  exact ⟨hline, .inl (by rw [hhead]; decide)⟩

theorem prologue_oneLine {rest : List Line} (h : ∀ l ∈ rest, OneLine l) :
    ∀ l ∈ Cpp.preamble ++ rest, OneLine l :=
  List.forall_mem_append.mpr ⟨fun l hl => (prologue_preamble l hl).1, h⟩

theorem prologue_append {rest : List Line} (h : ∀ l ∈ rest, Prologue l) :
    ∀ l ∈ Cpp.preamble ++ rest, Prologue l :=
  List.forall_mem_append.mpr ⟨prologue_preamble, h⟩

theorem prologue_beforeCommands : ∀ l ∈ Cpp.beforeCommands, Prologue l := by
  apply prologue_append
  unfold Cpp.opensNamespace
  repeat rw [String.toList_ofList]
  decide +kernel

theorem prologue_beforeEvents : ∀ l ∈ Cpp.beforeEvents, Prologue l := by
  apply prologue_append
  unfold Cpp.opensNamespace
  repeat rw [String.toList_ofList]
  decide +kernel

section

variable {spec : XfsContract} {id : List Char} {svc : ServiceDef}

theorem XfsContract.Sound.described (h : spec.Sound) :
    ∀ e ∈ spec.services, Identifier e.1 ∧ OneLine e.2.description :=
  fun e he => ⟨h.ids e he, (h.services e he).description⟩

theorem cpp_commands (h : spec.Sound) (hs : (id, svc) ∈ spec.services) :
    cppNamespace (toLowerCase id) cppString (normalized (Cpp.emitCommands spec)) =
      svc.commands := by
  let body (svc : ServiceDef) : List Line := svc.commands.map fun e => Cpp.stringView e.1 e.2
  have hbody : ∀ e ∈ spec.services, ∀ l ∈ body e.2, OneLine l ∧ l.head? = some 'c' := by
    intro e he l hl
    obtain ⟨c, hc, rfl⟩ := List.mem_map.mp hl
    exact stringView_line ((h.services e he).commands c hc).1 ((h.services e he).commands c hc).2
  have hfile : lines (normalized (Cpp.emitCommands spec)) = Cpp.beforeCommands ++
      (declared spec.services body ++ [Cpp.closesNamespace "zegen::xfs::commands".toList, []]) := by
    apply lines_header
    · simp
    · simp only [List.forall_mem_append, List.forall_mem_cons]
      exact ⟨fun l hl => (prologue_beforeCommands l hl).1,
        oneLine_declared h.described fun e he l hl => (hbody e he l hl).1,
        by decide, oneLine_nil, nofun⟩
  rw [cppNamespace_eq _ hfile hs (h.ids _ hs) h.distinct
    (fun l hl => (prologue_beforeCommands l hl).2) fun e he l hl => (hbody e he l hl).2]
  have hcommands := (h.services _ hs).commands
  exact (filterMap_read cppString svc.commands (fun e _ => stringView_eq e.1 e.2) fun e he =>
    ⟨(hcommands e he).1.not_space, fun hq => ((hcommands e he).2 _ hq).2.2.2.1 rfl⟩).trans
      (List.map_id _)

theorem cpp_events (h : spec.Sound) (hs : (id, svc) ∈ spec.services) {header : List Char}
    (hheader : Cpp.emitEvents spec = .ok header) :
    cppNamespace (toLowerCase id) cppString (normalized header) =
        svc.events.map (fun e => (e.1, e.2.code)) ∧
      cppNamespace (toLowerCase id) cppClass (normalized header) =
        svc.events.map fun e => (e.1 ++ "_CLASS".toList, enumOf e.2.cls) := by
  have hservices : Cpp.eventServices spec.services = .ok (declared spec.services eventBody) := by
    rcases eventServices_iff spec.services with ⟨-, hok⟩ | ⟨-, e, herror⟩
    · exact hok
    · rw [Cpp.emitEvents, herror] at hheader
      cases hheader
  rw [Cpp.emitEvents, hservices] at hheader
  have hbody : ∀ e ∈ spec.services, ∀ l ∈ eventBody e.2, OneLine l ∧ l.head? = some 'c' :=
    fun e he => (h.services e he).eventBody
  have hfile : lines (normalized header) = Cpp.beforeEvents ++ (declared spec.services eventBody ++
      [Cpp.closesNamespace "zegen::xfs::events".toList, []]) := by
    rw [← Except.ok.inj hheader]
    apply lines_header
    · simp
    · simp only [List.forall_mem_append, List.forall_mem_cons]
      exact ⟨fun l hl => (prologue_beforeEvents l hl).1,
        oneLine_declared h.described fun e he l hl => (hbody e he l hl).1,
        by decide, oneLine_nil, nofun⟩
  have hread := fun t : Template => cppNamespace_eq (t := t) _ hfile hs (h.ids _ hs) h.distinct
    (fun l hl => (prologue_beforeEvents l hl).2) fun e he l hl => (hbody e he l hl).2
  obtain ⟨hstrings, hclasses⟩ := filterMap_eventBody (h.services _ hs)
  exact ⟨(hread cppString).trans hstrings, (hread cppClass).trans hclasses⟩

end

theorem decimal_chars (n : Int) : ∀ c ∈ decimal n, c = '-' ∨ c.isDigit = true := by
  have hnat : ∀ m : Nat, ∀ c ∈ (toString m).toList, c.isDigit = true := by
    intro m c hc
    rw [Nat.toString_eq_repr, Nat.repr_eq_ofList_toDigits, String.toList_ofList] at hc
    exact Nat.isDigit_of_mem_toDigits (by decide) (by decide) hc
  intro c hc
  cases n with
  | ofNat m => exact .inr (hnat m c hc)
  | negSucc m =>
    have hminus : decimal (.negSucc m) = '-' :: (toString (m + 1)).toList := by
      show ("-" ++ toString (m + 1)).toList = _
      rw [String.toList_append]
      rfl
    rw [hminus] at hc
    rcases List.mem_cons.mp hc with rfl | hc
    · exact .inl rfl
    · exact .inr (hnat _ c hc)

theorem oneLine_decimal (n : Int) : OneLine (decimal n) := by
  intro c hc
  rcases decimal_chars n c hc with rfl | hdigit
  · decide
  · exact ⟨fun heq => by subst heq; exact absurd hdigit (by decide),
      fun heq => by subst heq; exact absurd hdigit (by decide)⟩

theorem not_mem_decimal {c : Char} (n : Int) (hminus : c ≠ '-') (hdigit : c.isDigit = false) :
    c ∉ decimal n := by
  intro hc
  rcases decimal_chars n c hc with heq | h
  · exact hminus heq
  · rw [hdigit] at h
    cases h

theorem tsNumber_eq (name : List Char) (value : Int) :
    "  ".toList ++ name ++ ": ".toList ++ decimal value ++ ",".toList =
      tsNumber.write name (decimal value) :=
  tsNumber.append_eq_write (by decide) (by decide) name (decimal value)

theorem cppInt32_eq (name : List Char) (value : Int) :
    "constexpr std::int32_t ".toList ++ name ++ " = ".toList ++ decimal value ++ ";".toList =
      cppInt32.write name (decimal value) :=
  cppInt32.append_eq_write (by decide) (by decide) name (decimal value)

theorem ts_resultCodes {spec : XfsContract} (h : spec.Sound) :
    tsObject "XFS_RESULT_CODES".toList tsNumber (normalized (Ts.emitResultCodes spec)) =
      spec.resultCodes.map fun e => (e.1, decimal e.2) := by
  let entries : List Line := spec.resultCodes.map fun e =>
    "  ".toList ++ e.1 ++ ": ".toList ++ decimal e.2 ++ ",".toList
  let comment : List Line :=
    [[], "/** XFS result codes (negative = error). Generated from spec. */".toList]
  let types : List Line := [[],
    "export type XfsResultCodeName = keyof typeof XFS_RESULT_CODES;".toList,
    ("export type XfsResultCodeValue = " ++
      "(typeof XFS_RESULT_CODES)[XfsResultCodeName];").toList, []]
  have hentries : ∀ l ∈ entries, OneLine l ∧ l.head? = some ' ' := by
    intro l hl
    obtain ⟨e, he, rfl⟩ := List.mem_map.mp hl
    exact ⟨.append (.append (.append (.append (by decide) (h.results e he).oneLine) (by decide))
      (oneLine_decimal _)) (by decide),
      head_append (head_append (head_append (head_append (by decide))))⟩
  have hcomment : ∀ l ∈ comment, OneLine l ∧ l.head? ≠ some 'e' := by
    simp only [comment]
    repeat rw [String.toList_ofList]
    decide +kernel
  have htypes : ∀ l ∈ types, OneLine l := by
    simp only [types, String.toList_append]
    repeat rw [String.toList_ofList]
    decide +kernel
  have hlines : lines (normalized (Ts.emitResultCodes spec)) =
      lines (Ts.trimEnd spec.preamble) ++ (comment ++
        Ts.opensObject "XFS_RESULT_CODES".toList :: (entries ++ Ts.closesObject :: types)) := by
    apply lines_file
    · exact fun hcr => h.plain ((List.rdropWhile_prefix _ _).subset hcr)
    · simp
    · refine List.forall_mem_append.mpr ⟨fun l hl => (hcomment l hl).1, ?_⟩
      refine List.forall_mem_cons.mpr ⟨oneLine_opensObject (by decide), ?_⟩
      refine List.forall_mem_append.mpr ⟨fun l hl => (hentries l hl).1, ?_⟩
      exact List.forall_mem_cons.mpr ⟨by decide, htypes⟩
  rw [tsObject_eq _ (hlines.trans (List.append_assoc ..).symm) ?_ fun l hl => (hentries l hl).2]
  · exact filterMap_read tsNumber spec.resultCodes (fun e _ => tsNumber_eq e.1 e.2) fun e he =>
      ⟨(h.results e he).not_colon, not_mem_decimal e.2 (by decide) (by decide)⟩
  · intro l hl
    rcases List.mem_append.mp hl with hl | hl
    · exact opensObject_ne (.inl (h.comments l hl)) _
    · exact opensObject_ne (.inl (hcomment l hl).2) _

theorem cpp_resultCodes {spec : XfsContract} (h : spec.Sound) :
    cppNamespace "zegen::xfs::result_codes".toList cppInt32
        (normalized (Cpp.emitResultCodes spec)) =
      spec.resultCodes.map fun e => (e.1, decimal e.2) := by
  let values : List Line := spec.resultCodes.map fun e =>
    "constexpr std::int32_t ".toList ++ e.1 ++ " = ".toList ++ decimal e.2 ++ ";".toList
  let head : List Line := [[], "#pragma once".toList, [], "#include <cstdint>".toList, []]
  let comment : List Line := [[], "/// XFS Service Provider return codes. Negative = error.".toList]
  have hvalues : ∀ l ∈ values, OneLine l ∧ l.head? = some 'c' := by
    intro l hl
    obtain ⟨e, he, rfl⟩ := List.mem_map.mp hl
    exact ⟨.append (.append (.append (.append (by decide) (h.results e he).oneLine) (by decide))
      (oneLine_decimal _)) (by decide),
      head_append (head_append (head_append (head_append (by decide))))⟩
  have hhead : ∀ l ∈ head, OneLine l ∧ l.head? ≠ some 'n' := by
    simp only [head]
    repeat rw [String.toList_ofList]
    decide +kernel
  have hcomment : ∀ l ∈ comment, OneLine l ∧ l.head? ≠ some '\x7d' ∧ l.head? ≠ some 'c' := by
    simp only [comment]
    repeat rw [String.toList_ofList]
    decide +kernel
  have hname : OneLine "zegen::xfs::result_codes".toList := by
    rw [String.toList_ofList]
    decide +kernel
  have hopens : OneLine (Cpp.opensNamespace "zegen::xfs::result_codes".toList) :=
    .append (.append (by decide) hname) (by decide)
  have hends : ∀ l ∈ [[], Cpp.closesNamespace "zegen::xfs::result_codes".toList, []],
      OneLine l := by
    refine List.forall_mem_cons.mpr ⟨oneLine_nil, List.forall_mem_cons.mpr ⟨?_, ?_⟩⟩
    · exact .append (by decide) hname
    · exact List.forall_mem_singleton.mpr oneLine_nil
  have hlines : lines (normalized (Cpp.emitResultCodes spec)) = (Cpp.preamble ++ head) ++
      Cpp.opensNamespace "zegen::xfs::result_codes".toList :: ((comment ++ values ++ [[]]) ++
        Cpp.closesNamespace "zegen::xfs::result_codes".toList :: [[]]) := by
    have hall : ∀ l ∈ Cpp.preamble ++ (head ++
        Cpp.opensNamespace "zegen::xfs::result_codes".toList :: (comment ++ (values ++ [[],
          Cpp.closesNamespace "zegen::xfs::result_codes".toList, []]))), OneLine l := by
      apply prologue_oneLine
      refine List.forall_mem_append.mpr ⟨fun l hl => (hhead l hl).1, ?_⟩
      refine List.forall_mem_cons.mpr ⟨hopens, ?_⟩
      refine List.forall_mem_append.mpr ⟨fun l hl => (hcomment l hl).1, ?_⟩
      exact List.forall_mem_append.mpr ⟨fun l hl => (hvalues l hl).1, hends⟩
    have hfile : lines (normalized (Cpp.emitResultCodes spec)) = _ := lines_header (by simp) hall
    rw [hfile]
    simp only [head, comment, values, List.append_assoc, List.cons_append, List.nil_append]
  have hbefore : Cpp.opensNamespace "zegen::xfs::result_codes".toList ∉ Cpp.preamble ++ head := by
    intro hmem
    rcases List.mem_append.mp hmem with hmem | hmem
    · have hslash := (preamble_lines _ hmem).2
      rw [head_opensNamespace] at hslash
      exact absurd hslash (by decide)
    · exact (hhead _ hmem).2 (head_opensNamespace _)
  have hcloses : (Cpp.closesNamespace "zegen::xfs::result_codes".toList).head? = some '\x7d' :=
    head_append (by decide)
  have hbody : Cpp.closesNamespace "zegen::xfs::result_codes".toList ∉
      comment ++ values ++ [[]] := by
    intro hmem
    rcases List.mem_append.mp hmem with hmem | hmem
    · rcases List.mem_append.mp hmem with hmem | hmem
      · exact (hcomment _ hmem).2.1 hcloses
      · rw [(hvalues _ hmem).2] at hcloses
        exact absurd hcloses (by decide)
    · rw [List.mem_singleton.mp hmem] at hcloses
      exact absurd hcloses (by decide)
  have hread : values.filterMap cppInt32.read = spec.resultCodes.map fun e => (e.1, decimal e.2) :=
    filterMap_read cppInt32 spec.resultCodes (fun e _ => cppInt32_eq e.1 e.2) fun e he =>
      ⟨(h.results e he).not_space, not_mem_decimal e.2 (by decide) (by decide)⟩
  have hnone : comment.filterMap cppInt32.read = [] :=
    List.filterMap_eq_nil_iff.mpr fun l hl =>
      cppInt32.read_of_head (by decide) (hcomment l hl).2.2
  rw [cppNamespace, hlines, block_eq [[]] hbefore hbody, List.filterMap_append,
    List.filterMap_append, hnone, hread]
  exact List.append_nil _

theorem emitEvents_iff (spec : XfsContract) :
    (∃ header, Cpp.emitEvents spec = .ok header) ↔
      ∀ s ∈ spec.services, ∀ e ∈ s.2.events, Known e.2.cls := by
  rcases eventServices_iff spec.services with ⟨hknown, hservices⟩ | ⟨hknown, m, hservices⟩
  · exact iff_of_true ⟨_, by rw [Cpp.emitEvents, hservices]; rfl⟩ hknown
  · refine iff_of_false ?_ hknown
    rintro ⟨header, hheader⟩
    rw [Cpp.emitEvents, hservices] at hheader
    cases hheader

def idcService : ServiceDef :=
  ⟨"Identification Card (card reader). Motor / DIP / contactless.".toList, "IDC30".toList,
    [("READ_RAW_DATA".toList, "WFS_CMD_IDC_READ_RAW_DATA".toList),
      ("EJECT_CARD".toList, "WFS_CMD_IDC_EJECT_CARD".toList)],
    [("MEDIA_INSERTED".toList, ⟨"WFS_SRVE_IDC_MEDIAINSERTED".toList, "SRVE".toList⟩),
      ("MEDIA_REMOVED".toList, ⟨"WFS_SRVE_IDC_MEDIAREMOVED".toList, "SRVE".toList⟩)]⟩

def pinService : ServiceDef :=
  ⟨"PIN Pad".toList, "PIN30".toList, [("GET_PIN".toList, "WFS_CMD_PIN_GET_PIN".toList)],
    [("KEY".toList, ⟨"WFS_EXEE_PIN_KEY".toList, "EXEE".toList⟩)]⟩

def twoServices : XfsContract :=
  ⟨"// GENERATED\n// DO NOT EDIT\n".toList,
    [("SUCCESS".toList, 0), ("ERR_CANCEL".toList, -1)],
    [("IDC".toList, idcService), ("PIN".toList, pinService)]⟩

theorem twoServices_sound : twoServices.Sound where
  plain := by decide +kernel
  comments := by decide +kernel
  results := by decide +kernel
  ids := by decide +kernel
  services := by
    refine List.forall_mem_cons.mpr ⟨?_, List.forall_mem_singleton.mpr ?_⟩
    · constructor <;> decide +kernel
    · constructor <;> decide +kernel
  distinct := by decide +kernel

end AtmXfs.Codegen
