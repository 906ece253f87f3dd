import AtmXfs.Dll.Lookup

namespace AtmXfs.Dll

open Js JsonText
open Framing (Bytes)

def isAlnum (b : UInt8) : Bool :=
  (0x30 ≤ b ∧ b ≤ 0x39) ∨ (0x41 ≤ b ∧ b ≤ 0x5a) ∨ (0x61 ≤ b ∧ b ≤ 0x7a)

namespace Reader

/-- `find_field_start`: each part of the path is searched for behind the one before it. -/
def fieldStart : List Bytes → Bytes → Option Bytes
  | [], _ => none
  | [segment], body => findFieldStart body segment
  | segment :: segments, body =>
    match findFieldStart body segment with
    | none => none
    | some rest => fieldStart segments (if rest.head? = some 0x7b then rest.tail else rest)

/-- `get_string`, for any path. -/
def getStringAt (body path : Bytes) : Bytes :=
  match fieldStart (path.splitOn 0x2e) body with
  | some (b :: rest) => if b = 0x22 then unescape (quoted rest) else []
  | _ => []

/-- A path without a dot is a name. -/
theorem getStringAt_name {name : Bytes} (hname : ∀ b ∈ name, b ≠ 0x2e) (body : Bytes) :
    getStringAt body name = getString body name := by
  have hsingle : name.splitOn 0x2e = [name] :=
    List.splitOnP_eq_singleton fun b hb => by simpa using hname b hb
  rw [getStringAt, hsingle]
  rfl

end Reader

/-- The object of the given string members, as `Writer` builds it. -/
def written (pairs : List (Bytes × Bytes)) : Bytes :=
  (pairs.foldl (fun w p => (w.key p.1).string p.2) Writer.new).str

/-- What `find_field_start` searches for. -/
def needle (k : Bytes) : Bytes := 0x22 :: (k ++ [0x22, 0x3a])

def memberText (p : Bytes × Bytes) : Bytes :=
  needle p.1 ++ 0x22 :: (Writer.escape p.2 ++ [0x22])

/-- The members with what opens the first of them, and the end of the object. -/
def objectFrom : UInt8 → List (Bytes × Bytes) → Bytes
  | _, [] => [0x7d]
  | opening, p :: ps => opening :: (memberText p ++ objectFrom 0x2c ps)

theorem isAlnum_ne {b c : UInt8} (hb : isAlnum b = true) (hc : isAlnum c = false) : b ≠ c := by
  intro heq
  rw [heq, hc] at hb
  cases hb

/-- A byte is written as it is, or behind a backslash as the letter that stands for it. -/
theorem escapeByte_cases (b : UInt8) :
    (Writer.escapeByte b = [b] ∧ b ≠ 0x22 ∧ b ≠ 0x5c) ∨
      ∃ c, Writer.escapeByte b = [0x5c, c] ∧
        (if c = 0x6e then 0x0a else if c = 0x72 then 0x0d else if c = 0x74 then 0x09 else c) = b := by
  by_cases hquote : b = 0x22
  · exact .inr ⟨0x22, by rw [hquote]; decide, by rw [hquote]; decide⟩
  by_cases hslash : b = 0x5c
  · exact .inr ⟨0x5c, by rw [hslash]; decide, by rw [hslash]; decide⟩
  by_cases hline : b = 0x0a
  · exact .inr ⟨0x6e, by rw [hline]; decide, by rw [hline]; decide⟩
  by_cases hreturn : b = 0x0d
  · exact .inr ⟨0x72, by rw [hreturn]; decide, by rw [hreturn]; decide⟩
  by_cases htab : b = 0x09
  · exact .inr ⟨0x74, by rw [htab]; decide, by rw [htab]; decide⟩
  exact .inl ⟨by simp [Writer.escapeByte, hquote, hslash, hline, hreturn, htab], hquote, hslash⟩

theorem escape_cons (b : UInt8) (v : Bytes) :
    Writer.escape (b :: v) = Writer.escapeByte b ++ Writer.escape v := List.flatMap_cons

theorem escape_alnum {k : Bytes} (hk : ∀ b ∈ k, isAlnum b = true) : Writer.escape k = k := by
  induction k with
  | nil => rfl
  | cons b k ih =>
    have hb := hk b (List.mem_cons_self ..)
    have hplain : Writer.escapeByte b = [b] := by
      have hquote := isAlnum_ne hb (c := 0x22) (by decide)
      have hslash := isAlnum_ne hb (c := 0x5c) (by decide)
      have hline := isAlnum_ne hb (c := 0x0a) (by decide)
      have hreturn := isAlnum_ne hb (c := 0x0d) (by decide)
      have htab := isAlnum_ne hb (c := 0x09) (by decide)
      simp [Writer.escapeByte, hquote, hslash, hline, hreturn, htab]
    have hrest := ih fun c hc => hk c (List.mem_cons_of_mem _ hc)
    rw [escape_cons, hplain, hrest]
    rfl

/-- `unescape` undoes `escape`. -/
theorem unescape_escape (v : Bytes) : Reader.unescape (Writer.escape v) = v := by
  induction v with
  | nil => rfl
  | cons b v ih =>
    rw [escape_cons]
    rcases escapeByte_cases b with ⟨hplain, -, hslash⟩ | ⟨c, hescaped, hback⟩
    · rw [hplain]
      show Reader.unescape (b :: Writer.escape v) = b :: v
      cases hrest : Writer.escape v with
      | nil =>
        rw [hrest] at ih
        rw [← ih]
        rfl
      | cons d more =>
        rw [Reader.unescape, if_neg hslash, ← hrest, ih]
    · rw [hescaped]
      show Reader.unescape (0x5c :: c :: Writer.escape v) = b :: v
      rw [Reader.unescape, if_pos rfl, hback, ih]

/-- The scan for the closing quote stops at the end of the escaped text. -/
theorem quoted_escape (v : Bytes) (c : UInt8) (rest : Bytes) :
    Reader.quoted (Writer.escape v ++ 0x22 :: c :: rest) = Writer.escape v := by
  induction v with
  | nil =>
    show Reader.quoted (0x22 :: c :: rest) = []
    rw [Reader.quoted, if_neg (by decide), if_pos rfl]
  | cons b v ih =>
    rw [escape_cons, List.append_assoc]
    rcases escapeByte_cases b with ⟨hplain, hquote, hslash⟩ | ⟨x, hescaped, -⟩
    · have hcons : Writer.escape v ++ 0x22 :: c :: rest ≠ [] := by simp
      obtain ⟨d, more, hmore⟩ := List.exists_cons_of_ne_nil hcons
      rw [hmore] at ih
      rw [hplain, hmore]
      show Reader.quoted (b :: d :: more) = b :: Writer.escape v
      rw [Reader.quoted, if_neg hslash, if_neg hquote, ih]
    · rw [hescaped]
      show Reader.quoted (0x5c :: x :: (Writer.escape v ++ 0x22 :: c :: rest)) =
        0x5c :: x :: Writer.escape v
      rw [Reader.quoted, if_pos rfl, ih]

/-- No place of an escaped text, nor its end, reads as a key with quote and colon behind it. -/
theorem not_key_prefix {k : Bytes} (hk : ∀ b ∈ k, isAlnum b = true) {c : UInt8} (hc : c ≠ 0x3a)
    (v rest : Bytes) : ¬ k ++ [0x22, 0x3a] <+: Writer.escape v ++ 0x22 :: c :: rest := by
  induction v generalizing k with
  | nil =>
    intro hprefix
    cases k with
    | nil =>
      have hcolon := (List.cons_prefix_cons.mp hprefix).2
      exact hc (List.cons_prefix_cons.mp hcolon).1.symm
    | cons a k =>
      have ha := hk a (List.mem_cons_self ..)
      exact isAlnum_ne ha (by decide) (List.cons_prefix_cons.mp hprefix).1
  | cons b v ih =>
    rw [escape_cons, List.append_assoc]
    intro hprefix
    rcases escapeByte_cases b with ⟨hplain, hquote, -⟩ | ⟨x, hescaped, -⟩
    · rw [hplain] at hprefix
      cases k with
      | nil => exact hquote (List.cons_prefix_cons.mp hprefix).1.symm
      | cons a k =>
        have hrest := (List.cons_prefix_cons.mp hprefix).2
        exact ih (fun d hd => hk d (List.mem_cons_of_mem _ hd)) hrest
    · rw [hescaped] at hprefix
      cases k with
      | nil => exact absurd (List.cons_prefix_cons.mp hprefix).1 (by decide)
      | cons a k =>
        have ha := hk a (List.mem_cons_self ..)
        exact isAlnum_ne ha (by decide) (List.cons_prefix_cons.mp hprefix).1

section Search

variable {k : Bytes} (hne : k ≠ []) (hk : ∀ b ∈ k, isAlnum b = true)

include hk in
theorem noQuote_of_alnum : ∀ b ∈ k, b ≠ 0x22 := fun b hb => isAlnum_ne (hk b hb) (by decide)

theorem skip_other {b : UInt8} (hb : b ≠ 0x22) (rest : Bytes) :
    afterFirst (needle k) (b :: rest) = afterFirst (needle k) rest := afterFirst_ne hb _ rest

include hne hk in
/-- A closing quote is passed over, since no key begins behind it. -/
theorem skip_closing {c : UInt8} (hc : isAlnum c = false) (rest : Bytes) :
    afterFirst (needle k) (0x22 :: c :: rest) = afterFirst (needle k) (c :: rest) :=
  afterFirst_closing hne (fun b hb => isAlnum_ne (hk b hb) hc) rest

include hk in
/-- The search passes over an escaped text, whatever the value is. -/
theorem skip_escaped {c : UInt8} (hc : c ≠ 0x3a) (v rest : Bytes) :
    afterFirst (needle k) (Writer.escape v ++ 0x22 :: c :: rest) =
      afterFirst (needle k) (0x22 :: c :: rest) := by
  induction v with
  | nil => rfl
  | cons b v ih =>
    rw [escape_cons, List.append_assoc]
    rcases escapeByte_cases b with ⟨hplain, hquote, -⟩ | ⟨x, hescaped, -⟩
    · rw [hplain]
      exact (skip_other hquote _).trans ih
    · rw [hescaped]
      have hafter : afterFirst (needle k) (x :: (Writer.escape v ++ 0x22 :: c :: rest)) =
          afterFirst (needle k) (Writer.escape v ++ 0x22 :: c :: rest) := by
        apply afterFirst_cons
        intro hprefix
        exact not_key_prefix hk hc v rest (List.cons_prefix_cons.mp hprefix).2
      exact ((skip_other (by decide) _).trans hafter).trans ih

include hne hk in
/-- The search passes over a member of another key. -/
theorem skip_member {p : Bytes × Bytes} (hp : ∀ b ∈ p.1, isAlnum b = true) (hother : k ≠ p.1)
    {c : UInt8} (hc : isAlnum c = false) (hcolon : c ≠ 0x3a) (rest : Bytes) :
    afterFirst (needle k) (memberText p ++ c :: rest) = afterFirst (needle k) (c :: rest) := by
  have hsplit : memberText p ++ c :: rest =
      0x22 :: (p.1 ++ 0x22 :: 0x3a :: 0x22 :: (Writer.escape p.2 ++ 0x22 :: c :: rest)) := by
    simp [memberText, needle]
  have hkey : afterFirst (needle k)
      (0x22 :: (p.1 ++ 0x22 :: 0x3a :: 0x22 :: (Writer.escape p.2 ++ 0x22 :: c :: rest))) =
      afterFirst (needle k)
        (p.1 ++ 0x22 :: 0x3a :: 0x22 :: (Writer.escape p.2 ++ 0x22 :: c :: rest)) := by
    apply afterFirst_cons
    intro hprefix
    exact not_other_prefix (noQuote_of_alnum hk) (noQuote_of_alnum hp) hother _
      (List.cons_prefix_cons.mp hprefix).2
  have hvalue : afterFirst (needle k) (0x22 :: (Writer.escape p.2 ++ 0x22 :: c :: rest)) =
      afterFirst (needle k) (Writer.escape p.2 ++ 0x22 :: c :: rest) := by
    apply afterFirst_cons
    intro hprefix
    exact not_key_prefix hk hcolon p.2 rest (List.cons_prefix_cons.mp hprefix).2
  calc afterFirst (needle k) (memberText p ++ c :: rest)
      = afterFirst (needle k)
          (p.1 ++ 0x22 :: 0x3a :: 0x22 :: (Writer.escape p.2 ++ 0x22 :: c :: rest)) := by
        rw [hsplit, hkey]
    _ = afterFirst (needle k)
          (0x22 :: 0x3a :: 0x22 :: (Writer.escape p.2 ++ 0x22 :: c :: rest)) :=
        afterFirst_skip (noQuote_of_alnum hp) _
    _ = afterFirst (needle k) (0x22 :: (Writer.escape p.2 ++ 0x22 :: c :: rest)) := by
        rw [skip_closing hne hk (by decide), skip_other (by decide)]
    _ = afterFirst (needle k) (c :: rest) := by
        rw [hvalue, skip_escaped hk hcolon, skip_closing hne hk hc]

end Search

theorem foldl_written (pairs : List (Bytes × Bytes)) (w : Writer) (hw : w.first = false)
    (hkeys : ∀ p ∈ pairs, ∀ b ∈ p.1, isAlnum b = true) :
    (pairs.foldl (fun w p => (w.key p.1).string p.2) w).str = w.out ++ objectFrom 0x2c pairs := by
  induction pairs generalizing w with
  | nil => rfl
  | cons p ps ih =>
    have hname := escape_alnum (hkeys p (List.mem_cons_self ..))
    have hstep : ((w.key p.1).string p.2).out = w.out ++ 0x2c :: memberText p := by
      simp [Writer.key, Writer.string, Writer.raw, hw, hname, memberText, needle, ascii]
    have hrest := ih ((w.key p.1).string p.2) rfl fun q hq => hkeys q (List.mem_cons_of_mem _ hq)
    rw [List.foldl_cons, hrest, hstep, objectFrom]
    simp

theorem written_eq {pairs : List (Bytes × Bytes)} (hne : pairs ≠ [])
    (hkeys : ∀ p ∈ pairs, ∀ b ∈ p.1, isAlnum b = true) :
    written pairs = objectFrom 0x7b pairs := by
  obtain ⟨p, ps, rfl⟩ := List.exists_cons_of_ne_nil hne
  have hname := escape_alnum (hkeys p (List.mem_cons_self ..))
  have hstart : ((Writer.new.key p.1).string p.2).out = 0x7b :: memberText p := by
    simp [Writer.key, Writer.string, Writer.raw, Writer.new, hname, memberText, needle, ascii]
  have hrest := foldl_written ps ((Writer.new.key p.1).string p.2) rfl
    fun q hq => hkeys q (List.mem_cons_of_mem _ hq)
  rw [written, List.foldl_cons, hrest, hstart, objectFrom]
  rfl

theorem objectFrom_head (ps : List (Bytes × Bytes)) : ∃ c rest, objectFrom 0x2c ps = c :: rest ∧
    isAlnum c = false ∧ c ≠ 0x3a ∧ c ≠ 0x22 := by
  cases ps with
  | nil => exact ⟨0x7d, [], rfl, by decide, by decide, by decide⟩
  | cons p ps => exact ⟨0x2c, _, rfl, by decide, by decide, by decide⟩

/-- The first place where a key is found is its own member. -/
theorem afterFirst_objectFrom {pairs : List (Bytes × Bytes)}
    (hkeys : ∀ p ∈ pairs, p.1 ≠ [] ∧ ∀ b ∈ p.1, isAlnum b = true)
    (hdistinct : (pairs.map Prod.fst).Nodup) (opening : UInt8) (hopening : opening ≠ 0x22)
    {p : Bytes × Bytes} (hp : p ∈ pairs) :
    ∃ c rest, afterFirst (needle p.1) (objectFrom opening pairs) =
      some (0x22 :: (Writer.escape p.2 ++ 0x22 :: c :: rest)) := by
  induction pairs generalizing opening with
  | nil => cases hp
  | cons q ps ih =>
    obtain ⟨hfresh, hdistinct'⟩ := List.nodup_cons.mp hdistinct
    obtain ⟨c, rest, hrest, hc, hcolon, hquote⟩ := objectFrom_head ps
    rw [objectFrom, skip_other hopening]
    rcases List.mem_cons.mp hp with heq | hlater
    · rw [heq, hrest]
      have hsplit : memberText q ++ c :: rest =
          0x22 :: (q.1 ++ [0x22, 0x3a]) ++ 0x22 :: (Writer.escape q.2 ++ 0x22 :: c :: rest) := by
        simp [memberText, needle]
      rw [hsplit]
      exact ⟨c, rest, afterFirst_prefix _ _⟩
    · obtain ⟨hne, hk⟩ := hkeys p hp
      have hother : p.1 ≠ q.1 := by
        intro heq
        exact hfresh (heq ▸ List.mem_map_of_mem hlater)
      have hlast := ih (fun r hr => hkeys r (List.mem_cons_of_mem _ hr)) hdistinct'
        0x2c (by decide) hlater
      rw [hrest, skip_member hne hk (hkeys q (List.mem_cons_self ..)).2 hother hc hcolon, ← hrest]
      exact hlast

/-- Members of distinct alphanumeric keys are read back, whatever bytes their values hold. -/
theorem getString_written {pairs : List (Bytes × Bytes)}
    (hkeys : ∀ p ∈ pairs, p.1 ≠ [] ∧ ∀ b ∈ p.1, isAlnum b = true)
    (hdistinct : (pairs.map Prod.fst).Nodup) :
    ∀ p ∈ pairs, Reader.getStringAt (written pairs) p.1 = p.2 := by
  intro p hp
  have hdotless : ∀ b ∈ p.1, b ≠ 0x2e := fun b hb => isAlnum_ne ((hkeys p hp).2 b hb) (by decide)
  have hwritten := written_eq (List.ne_nil_of_mem hp) fun q hq => (hkeys q hq).2
  obtain ⟨c, rest, hfound⟩ := afterFirst_objectFrom hkeys hdistinct 0x7b (by decide) hp
  have hstart : Reader.findFieldStart (written pairs) p.1 =
      some (0x22 :: (Writer.escape p.2 ++ 0x22 :: c :: rest)) := by
    have hneedle : ascii "\"" ++ p.1 ++ ascii "\":" = needle p.1 := rfl
    rw [Reader.findFieldStart, hneedle, hwritten, hfound, Option.map_some,
      List.dropWhile_cons_of_neg (by decide)]
  rw [Reader.getStringAt_name hdotless, Reader.getString, hstart]
  show (if (0x22 : UInt8) = 0x22 then _ else _) = p.2
  rw [if_pos rfl, quoted_escape, unescape_escape]

/-- The first value looks like the second member, the second is a lone backslash. -/
def lookalikes : List (Bytes × Bytes) :=
  [(ascii "a", ascii ",\"b\":\"x\""), (ascii "b", ascii "\\")]

theorem getString_written_lookalikes :
    Reader.getStringAt (written lookalikes) (ascii "a") = ascii ",\"b\":\"x\"" ∧
      Reader.getStringAt (written lookalikes) (ascii "b") = ascii "\\" := by
  have hkeys : ∀ p ∈ lookalikes, p.1 ≠ [] ∧ ∀ b ∈ p.1, isAlnum b = true := by
    intro p hp
    rcases List.mem_cons.mp hp with rfl | hp
    · decide
    · rw [List.mem_singleton.mp hp]
      decide
  have hdistinct : (lookalikes.map Prod.fst).Nodup := by decide
  exact ⟨getString_written hkeys hdistinct _ (List.mem_cons_self ..),
    getString_written hkeys hdistinct _ (List.mem_cons_of_mem _ (List.mem_cons_self ..))⟩

end AtmXfs.Dll
