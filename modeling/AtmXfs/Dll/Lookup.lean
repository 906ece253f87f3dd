import AtmXfs.Dll.MiniJson

namespace AtmXfs.Dll

open Js JsonText
open Framing (Bytes)

/-- A text that is written into JSON as it is. -/
structure PlainText where
  bytes : Bytes
  plain : ∀ b ∈ bytes, 0x20 ≤ b ∧ b < 0x80 ∧ b ≠ 0x22 ∧ b ≠ 0x5c

/-- The name of a member, of letters only. -/
structure FieldName where
  bytes : Bytes
  nonempty : bytes ≠ []
  letters : ∀ b ∈ bytes, 0x41 ≤ b ∧ b ≤ 0x7a

def PlainText.quoted (t : PlainText) : Bytes := 0x22 :: (t.bytes ++ [0x22])

/-- The name as it stands before its value. -/
def FieldName.searched (n : FieldName) : Bytes := 0x22 :: (n.bytes ++ [0x22, 0x3a])

/-- A member with a text for its value, and the comma behind it. -/
def textMember (n : FieldName) (t : PlainText) : Bytes := n.searched ++ (t.quoted ++ [0x2c])

theorem PlainText.noQuote (t : PlainText) : ∀ b ∈ t.bytes, b ≠ 0x22 :=
  fun b hb => (t.plain b hb).2.2.1

theorem FieldName.ne_of_mem (n : FieldName) {c : UInt8} (hc : ¬(0x41 ≤ c ∧ c ≤ 0x7a)) :
    ∀ b ∈ n.bytes, b ≠ c := by
  intro b hb heq
  exact hc (heq ▸ n.letters b hb)

theorem FieldName.noQuote (n : FieldName) : ∀ b ∈ n.bytes, b ≠ 0x22 := n.ne_of_mem (by decide)

theorem afterFirst_cons {needle : Bytes} {b : UInt8} {rest : Bytes}
    (h : ¬needle <+: b :: rest) : afterFirst needle (b :: rest) = afterFirst needle rest := by
  rw [afterFirst, if_neg]
  simpa using h

/-- A byte that no occurrence starts with is passed over. -/
theorem afterFirst_ne {q b : UInt8} (hb : b ≠ q) (needle rest : Bytes) :
    afterFirst (q :: needle) (b :: rest) = afterFirst (q :: needle) rest := by
  apply afterFirst_cons
  intro hprefix
  exact hb (List.cons_prefix_cons.mp hprefix).1.symm

/-- Nothing is found before the byte that the text starts with. -/
theorem afterFirst_skip {q : UInt8} {needle pre : Bytes} (h : ∀ b ∈ pre, b ≠ q) (rest : Bytes) :
    afterFirst (q :: needle) (pre ++ rest) = afterFirst (q :: needle) rest := by
  induction pre with
  | nil => rfl
  | cons b pre ih =>
    rw [List.cons_append, afterFirst_ne (h b (List.mem_cons_self ..))]
    exact ih fun b hb => h b (List.mem_cons_of_mem _ hb)

theorem afterFirst_prefix {q : UInt8} (needle rest : Bytes) :
    afterFirst (q :: needle) (q :: needle ++ rest) = some rest := by
  have hprefix : (q :: needle).isPrefixOf (q :: (needle ++ rest)) = true := by simp
  rw [List.cons_append, afterFirst, if_pos hprefix, ← List.cons_append, List.drop_left]

/-- Where a text is found with another one behind it the two are found as one. -/
theorem afterFirst_append {needle more body rest : Bytes}
    (h : afterFirst needle body = some (more ++ rest)) :
    afterFirst (needle ++ more) body = some rest := by
  induction body with
  | nil =>
    rw [afterFirst] at h
    split_ifs at h with hneedle
    obtain ⟨rfl, rfl⟩ := List.append_eq_nil_iff.mp (Option.some.inj h).symm
    rw [hneedle]
    rfl
  | cons b body ih =>
    rw [afterFirst] at h
    split_ifs at h with hprefix
    · obtain ⟨tail, htail⟩ := List.isPrefixOf_iff_prefix.mp hprefix
      rw [← htail, List.drop_left] at h
      rw [← htail, Option.some.inj h, ← List.append_assoc]
      cases hlong : needle ++ more with
      | nil =>
        obtain ⟨rfl, rfl⟩ := List.append_eq_nil_iff.mp hlong
        cases rest with
        | nil => rfl
        | cons c rest => rfl
      | cons q long => exact afterFirst_prefix long rest
    · have hne : ¬needle ++ more <+: b :: body := by
        intro hlong
        have hshort := (List.prefix_append needle more).trans hlong
        exact hprefix (List.isPrefixOf_iff_prefix.mpr hshort)
      rw [afterFirst_cons hne]
      exact ih h

theorem dropWhile_plain {q : UInt8} {pre : Bytes} (h : ∀ b ∈ pre, b ≠ q) (rest : Bytes) :
    (pre ++ q :: rest).dropWhile (· ≠ q) = q :: rest := by
  rw [List.dropWhile_append_of_pos fun b hb => by simpa using h b hb, List.dropWhile_cons_of_neg]
  simp

/-- A text that ends at its quote and one that a colon follows are not the same. -/
theorem not_searched_prefix {name t : Bytes} (hname : ∀ b ∈ name, b ≠ 0x22)
    (ht : ∀ b ∈ t, b ≠ 0x22) {c : UInt8} (hc : c ≠ 0x3a) (rest : Bytes) :
    ¬name ++ [0x22, 0x3a] <+: t ++ 0x22 :: c :: rest := by
  intro hprefix
  obtain ⟨more, hmore⟩ := hprefix
  have hdrop := congrArg (List.dropWhile (· ≠ 0x22)) hmore
  rw [dropWhile_plain ht, List.append_assoc, List.cons_append, dropWhile_plain hname] at hdrop
  cases hdrop
  exact hc rfl

theorem takeWhile_plain {q : UInt8} {pre : Bytes} (h : ∀ b ∈ pre, b ≠ q) (rest : Bytes) :
    (pre ++ q :: rest).takeWhile (· ≠ q) = pre := by
  rw [List.takeWhile_append_of_pos fun b hb => by simpa using h b hb, List.takeWhile_cons_of_neg,
    List.append_nil]
  simp

/-- Two names that are searched for in one place are the same. -/
theorem not_other_prefix {name t : Bytes} (hname : ∀ b ∈ name, b ≠ 0x22) (ht : ∀ b ∈ t, b ≠ 0x22)
    (hne : name ≠ t) (rest : Bytes) : ¬name ++ [0x22, 0x3a] <+: t ++ 0x22 :: rest := by
  intro hprefix
  obtain ⟨more, hmore⟩ := hprefix
  have htake := congrArg (List.takeWhile (· ≠ 0x22)) hmore
  rw [takeWhile_plain ht, List.append_assoc, List.cons_append, takeWhile_plain hname] at htake
  exact hne htake

/-- A quote is passed over if the name does not begin with the byte behind it. -/
theorem afterFirst_closing {name : Bytes} (hne : name ≠ []) {c : UInt8} (hc : ∀ b ∈ name, b ≠ c)
    (rest : Bytes) : afterFirst (0x22 :: (name ++ [0x22, 0x3a])) (0x22 :: c :: rest) =
      afterFirst (0x22 :: (name ++ [0x22, 0x3a])) (c :: rest) := by
  apply afterFirst_cons
  intro hprefix
  have hname : name ++ [0x22, 0x3a] <+: c :: rest := (List.cons_prefix_cons.mp hprefix).2
  obtain ⟨b, more, rfl⟩ := List.exists_cons_of_ne_nil hne
  exact hc b (List.mem_cons_self ..) (List.cons_prefix_cons.mp hname).1

section Search

variable {n : FieldName}

/-- A quote at which the name does not begin is passed over. -/
theorem afterFirst_quote {c : UInt8} (hc : ¬(0x41 ≤ c ∧ c ≤ 0x7a)) (rest : Bytes) :
    afterFirst n.searched (0x22 :: c :: rest) = afterFirst n.searched (c :: rest) :=
  afterFirst_closing n.nonempty (n.ne_of_mem hc) rest

theorem afterFirst_other {b : UInt8} (hb : b ≠ 0x22) (rest : Bytes) :
    afterFirst n.searched (b :: rest) = afterFirst n.searched rest :=
  afterFirst_ne hb _ rest

theorem afterFirst_noQuote {pre : Bytes} (h : ∀ b ∈ pre, b ≠ 0x22) (rest : Bytes) :
    afterFirst n.searched (pre ++ rest) = afterFirst n.searched rest :=
  afterFirst_skip h rest

/-- The search for a member passes over a string that is a value. -/
theorem afterFirst_string {t : Bytes} (ht : ∀ b ∈ t, b ≠ 0x22) {c : UInt8}
    (hcolon : c ≠ 0x3a) (hc : ¬(0x41 ≤ c ∧ c ≤ 0x7a)) (rest : Bytes) :
    afterFirst n.searched (0x22 :: (t ++ 0x22 :: c :: rest)) = afterFirst n.searched (c :: rest) := by
  have hopen : ¬n.searched <+: 0x22 :: (t ++ 0x22 :: c :: rest) :=
    fun h => not_searched_prefix n.noQuote ht hcolon rest (List.cons_prefix_cons.mp h).2
  rw [afterFirst_cons hopen, afterFirst_noQuote ht, afterFirst_quote hc]

/-- It passes over the name of another member. -/
theorem afterFirst_name {m : FieldName} (hne : n.bytes ≠ m.bytes) (rest : Bytes) :
    afterFirst n.searched (m.searched ++ rest) = afterFirst n.searched rest := by
  have hsplit : m.searched ++ rest = 0x22 :: (m.bytes ++ 0x22 :: 0x3a :: rest) := by
    simp [FieldName.searched]
  have hopen : ¬n.searched <+: 0x22 :: (m.bytes ++ 0x22 :: 0x3a :: rest) :=
    fun h => not_other_prefix n.noQuote m.noQuote hne _ (List.cons_prefix_cons.mp h).2
  rw [hsplit, afterFirst_cons hopen, afterFirst_noQuote m.noQuote, afterFirst_quote (by decide),
    afterFirst_other (by decide)]

theorem afterFirst_textMember {m : FieldName} (hne : n.bytes ≠ m.bytes) (t : PlainText)
    (rest : Bytes) : afterFirst n.searched (textMember m t ++ rest) = afterFirst n.searched rest := by
  have hsplit : textMember m t ++ rest = m.searched ++ 0x22 :: (t.bytes ++ 0x22 :: 0x2c :: rest) := by
    simp [textMember, PlainText.quoted]
  rw [hsplit, afterFirst_name hne, afterFirst_string t.noQuote (by decide) (by decide),
    afterFirst_other (by decide)]

theorem afterFirst_found (rest : Bytes) : afterFirst n.searched (n.searched ++ rest) = some rest :=
  afterFirst_prefix _ rest

theorem afterFirst_textMember_found (t : PlainText) (rest : Bytes) :
    afterFirst n.searched (textMember n t ++ rest) = some (t.quoted ++ 0x2c :: rest) := by
  rw [textMember, List.append_assoc, List.append_assoc, afterFirst_found]
  rfl

end Search

theorem findFieldStart_eq (n : FieldName) (body : Bytes) :
    Reader.findFieldStart body n.bytes =
      (afterFirst n.searched body).map fun rest => rest.dropWhile Reader.isBlank := rfl

theorem quoted_plain {t : Bytes} (ht : ∀ b ∈ t, b ≠ 0x22 ∧ b ≠ 0x5c) (c : UInt8) (rest : Bytes) :
    Reader.quoted (t ++ 0x22 :: c :: rest) = t := by
  induction t with
  | nil =>
    rw [List.nil_append, Reader.quoted]
    rfl
  | cons b t ih =>
    obtain ⟨hquote, hslash⟩ := ht b (List.mem_cons_self ..)
    have htail := ih fun c hc => ht c (List.mem_cons_of_mem _ hc)
    have hcons : t ++ 0x22 :: c :: rest ≠ [] := by simp
    obtain ⟨d, more, hmore⟩ := List.exists_cons_of_ne_nil hcons
    rw [hmore] at htail
    rw [List.cons_append, hmore, Reader.quoted, if_neg hslash, if_neg hquote, htail]

theorem unescape_plain {t : Bytes} (ht : ∀ b ∈ t, b ≠ 0x5c) : Reader.unescape t = t := by
  induction t with
  | nil => rfl
  | cons b t ih =>
    have htail := ih fun c hc => ht c (List.mem_cons_of_mem _ hc)
    cases t with
    | nil => rfl
    | cons c t => rw [Reader.unescape, if_neg (ht b (List.mem_cons_self ..)), htail]

/-- A text is read back from the member that holds it. -/
theorem getString_found {n : FieldName} {body : Bytes} {t : PlainText} {rest : Bytes}
    (h : afterFirst n.searched body = some (t.quoted ++ 0x2c :: rest)) :
    Reader.getString body n.bytes = t.bytes := by
  have hstart : Reader.findFieldStart body n.bytes =
      some (0x22 :: (t.bytes ++ 0x22 :: 0x2c :: rest)) := by
    rw [findFieldStart_eq, h, Option.map_some]
    have hsplit : t.quoted ++ 0x2c :: rest = 0x22 :: (t.bytes ++ 0x22 :: 0x2c :: rest) := by
      simp [PlainText.quoted]
    rw [hsplit, List.dropWhile_cons_of_neg (by decide)]
  have hquoted := quoted_plain (fun b hb => (t.plain b hb).2.2) 0x2c rest
  rw [Reader.getString, hstart]
  simp only [if_true]
  rw [hquoted, unescape_plain fun b hb => (t.plain b hb).2.2.2]

def typeName : FieldName := ⟨ascii "type", by decide, by decide⟩

def idName : FieldName := ⟨ascii "id", by decide, by decide⟩

def tsName : FieldName := ⟨ascii "ts", by decide, by decide⟩

def payloadName : FieldName := ⟨ascii "payload", by decide, by decide⟩

/-- What the frames of the bridge start with. -/
def frameHead (type id ts : PlainText) : Bytes :=
  0x7b :: (textMember typeName type ++ (textMember idName id ++ textMember tsName ts))

theorem afterFirst_frameHead {n : FieldName} (htype : n.bytes ≠ typeName.bytes)
    (hid : n.bytes ≠ idName.bytes) (hts : n.bytes ≠ tsName.bytes) (type id ts : PlainText)
    (rest : Bytes) :
    afterFirst n.searched (frameHead type id ts ++ rest) = afterFirst n.searched rest := by
  rw [frameHead, List.cons_append, afterFirst_other (by decide), List.append_assoc,
    List.append_assoc, afterFirst_textMember htype, afterFirst_textMember hid,
    afterFirst_textMember hts]

theorem getString_type (type id ts : PlainText) (rest : Bytes) :
    Reader.getString (frameHead type id ts ++ rest) (ascii "type") = type.bytes := by
  have hfound := afterFirst_textMember_found (n := typeName) type
    ((textMember idName id ++ textMember tsName ts) ++ rest)
  apply getString_found (n := typeName)
  rw [frameHead, List.cons_append, afterFirst_other (by decide), List.append_assoc, hfound]

end AtmXfs.Dll
