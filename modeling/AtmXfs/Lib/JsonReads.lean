import AtmXfs.Lib.JsonText

namespace Js

open Framing (Bytes)

namespace JsonText

/-- No byte of a literal or a number. -/
def Follows (more : Bytes) : Prop := ∀ b ∈ more.head?, isWord b = false

/-- The text of a value, and what is read of it whatever follows. -/
def Reads (text : Bytes) (v : Option Json) : Prop :=
  ∀ n more, text.length < n → Follows more → value n (text ++ more) = v.map fun v => (v, more)

theorem follows_cons {b : UInt8} (hb : isWord b = false) (more : Bytes) : Follows (b :: more) :=
  fun _ hc => Option.mem_some.mp hc ▸ hb

theorem skipSpace_cons {b : UInt8} (hb : isSpace b = false) (rest : Bytes) :
    skipSpace (b :: rest) = b :: rest := by
  rw [skipSpace, List.dropWhile_cons, hb]
  rfl

theorem parse_of_reads {text : Bytes} {v : Option Json} (h : Reads text v) : parse text = v := by
  have hvalue := h (text.length + 1) [] (Nat.lt_succ_self _) (fun b hb => by cases hb)
  rw [List.append_nil] at hvalue
  rw [parse, hvalue]
  cases v <;> rfl

theorem reads_str (E : Escape) (bs : Bytes) :
    Reads (0x22 :: E.text bs ++ [0x22]) ((E.readBack bs).map .str) := by
  intro n more hn _
  obtain ⟨n, rfl⟩ := Nat.exists_eq_succ_of_ne_zero (Nat.ne_of_gt (Nat.zero_lt_of_lt hn))
  rw [value, List.cons_append, List.cons_append, skipSpace_cons (by decide)]
  simp only [if_true]
  rw [List.append_assoc, List.singleton_append, E.str_readBack]
  cases E.readBack bs <;> rfl

/-- Literals and numbers end where a byte follows that is none of theirs. -/
theorem reads_word {w : Bytes} (hne : w ≠ []) (hw : ∀ b ∈ w, isWord b = true) :
    Reads w (word w) := by
  intro n more hn hmore
  obtain ⟨n, rfl⟩ := Nat.exists_eq_succ_of_ne_zero (Nat.ne_of_gt (Nat.zero_lt_of_lt hn))
  obtain ⟨b, rest, rfl⟩ := List.exists_cons_of_ne_nil hne
  have hb := hw b (List.mem_cons_self ..)
  have hspace : isSpace b = false := by
    by_contra h
    rw [Bool.not_eq_false] at h
    simp only [isSpace, decide_eq_true_eq] at h
    rcases h with rfl | rfl | rfl | rfl <;> exact absurd hb (by decide)
  have htake : (b :: rest ++ more).takeWhile isWord = b :: rest := by
    rw [List.takeWhile_append_of_pos hw]
    cases more with
    | nil => simp
    | cons c more => rw [List.takeWhile_cons, hmore c rfl]; simp
  have hdrop : (b :: rest ++ more).dropWhile isWord = more := by
    rw [List.dropWhile_append_of_pos hw]
    cases more with
    | nil => rfl
    | cons c more => rw [List.dropWhile_cons, hmore c rfl]; simp
  have hquote : b ≠ 0x22 := by rintro rfl; exact absurd hb (by decide)
  have hbrace : b ≠ 0x7b := by rintro rfl; exact absurd hb (by decide)
  have hbracket : b ≠ 0x5b := by rintro rfl; exact absurd hb (by decide)
  rw [value, List.cons_append, skipSpace_cons hspace]
  simp only [if_neg hquote, if_neg hbrace, if_neg hbracket]
  rw [← List.cons_append, htake, hdrop]

/-- What stands between brackets or braces: the items with commas between them. -/
def writeItems : List Bytes → Bytes
  | [] => []
  | [t] => t
  | t :: u :: rest => t ++ 0x2c :: writeItems (u :: rest)

/-- A member of an object: the written name and what is read of it, the text of the value and
what is read of it. -/
structure Entry where
  key : Bytes
  name : Option Text
  text : Bytes
  value : Option Json

namespace Entry

def Readable (e : Entry) : Prop :=
  (∀ more, str .char (e.key ++ 0x22 :: more) = e.name.map fun s => (s, more)) ∧
    Reads e.text e.value

def read (e : Entry) : Option (Text × Json) :=
  e.name.bind fun name => e.value.map fun v => (name, v)

def write (e : Entry) : Bytes := 0x22 :: e.key ++ 0x22 :: 0x3a :: e.text

end Entry

/-- The members between the braces. -/
def writeEntries : List Entry → Bytes
  | [] => []
  | [e] => e.write
  | e :: f :: rest => e.write ++ 0x2c :: writeEntries (f :: rest)

theorem writeEntries_eq (entries : List Entry) :
    writeEntries entries = writeItems (entries.map Entry.write) := by
  induction entries with
  | nil => rfl
  | cons e rest ih =>
    cases rest with
    | nil => rfl
    | cons f rest => rw [writeEntries, ih]; rfl

/-- What is read of the members. -/
def readEntries : List Entry → Option (List (Text × Json))
  | [] => some []
  | e :: rest => e.read.bind fun m => (readEntries rest).map fun ms => m :: ms

/-- One member and what follows it. -/
theorem members_entry {e : Entry} (he : e.Readable) {n : Nat} (hn : e.text.length < n)
    {more : Bytes} (hmore : Follows more) :
    members (n + 1) (e.write ++ more) = e.read.bind fun m =>
      if (skipSpace more).head? = some 0x2c then
        (members n (skipSpace more).tail).map fun ms => (m :: ms.1, ms.2)
      else if (skipSpace more).head? = some 0x7d then some ([m], (skipSpace more).tail)
      else none := by
  obtain ⟨hkey, hvalue⟩ := he
  have hread := hvalue n more hn hmore
  rw [members, Entry.write]
  simp only [List.cons_append, List.append_assoc]
  rw [skipSpace_cons (by decide)]
  simp only [if_true]
  rw [hkey, Entry.read]
  cases e.name with
  | none => rfl
  | some name =>
    simp only [Option.map_some, Option.bind_some]
    rw [skipSpace_cons (by decide)]
    simp only [List.head?_cons, if_true, List.tail_cons]
    rw [hread]
    cases e.value <;> rfl

theorem members_write {entries : List Entry} (hne : entries ≠ [])
    (h : ∀ e ∈ entries, e.Readable) {n : Nat} (hn : (writeEntries entries).length < n)
    (more : Bytes) :
    members n (writeEntries entries ++ 0x7d :: more) =
      (readEntries entries).map fun ms => (ms, more) := by
  induction entries generalizing n with
  | nil => exact absurd rfl hne
  | cons e rest ih =>
    obtain ⟨n, rfl⟩ := Nat.exists_eq_succ_of_ne_zero (Nat.ne_of_gt (Nat.zero_lt_of_lt hn))
    have he := h e (List.mem_cons_self ..)
    cases rest with
    | nil =>
      have hlt : e.text.length < n := by
        simp only [writeEntries, Entry.write, List.length_cons, List.length_append] at hn
        omega
      rw [writeEntries, members_entry he hlt (follows_cons (by decide) _),
        skipSpace_cons (by decide), readEntries]
      cases e.read <;> rfl
    | cons f rest =>
      have hlt : e.text.length < n ∧ (writeEntries (f :: rest)).length < n := by
        simp only [writeEntries, Entry.write, List.length_cons, List.length_append] at hn
        omega
      have hrest := ih (List.cons_ne_nil _ _) (fun e he => h e (List.mem_cons_of_mem _ he)) hlt.2
      rw [writeEntries, List.append_assoc, List.cons_append,
        members_entry he hlt.1 (follows_cons (by decide) _), skipSpace_cons (by decide), readEntries]
      simp only [List.head?_cons, if_true, List.tail_cons]
      rw [hrest]
      cases e.read with
      | none => rfl
      | some m => cases readEntries (f :: rest) <;> rfl

/-- The text of an object, and what is read of it. -/
theorem reads_obj {entries : List Entry} (h : ∀ e ∈ entries, e.Readable) :
    Reads (0x7b :: writeEntries entries ++ [0x7d])
      ((readEntries entries).map fun ms => .obj (ownMembers ms)) := by
  intro n more hn _
  obtain ⟨n, rfl⟩ := Nat.exists_eq_succ_of_ne_zero (Nat.ne_of_gt (Nat.zero_lt_of_lt hn))
  rw [value, List.cons_append, List.cons_append, skipSpace_cons (by decide), List.append_assoc]
  simp only [List.singleton_append, if_true]
  rw [if_neg (show ¬ ((0x7b : UInt8) = 0x22) by decide)]
  cases entries with
  | nil => rfl
  | cons e rest =>
    have hhead : (skipSpace (writeEntries (e :: rest) ++ 0x7d :: more)).head? = some 0x22 := by
      cases rest with
      | nil =>
        simp only [writeEntries, Entry.write, List.cons_append]
        rw [skipSpace_cons (by decide)]
        rfl
      | cons f rest =>
        simp only [writeEntries, Entry.write, List.cons_append]
        rw [skipSpace_cons (by decide)]
        rfl
    have hlt : (writeEntries (e :: rest)).length < n := by
      simp only [List.length_cons, List.length_append] at hn
      omega
    rw [hhead, if_neg (by decide), members_write (List.cons_ne_nil _ _) h hlt]
    cases readEntries (e :: rest) <;> rfl

theorem items_write {texts : List Bytes} {vs : List Json} (hne : texts ≠ [])
    (h : List.Forall₂ (fun t v => Reads t (some v)) texts vs) {n : Nat}
    (hn : (writeItems texts).length + 1 < n) (more : Bytes) :
    items n (writeItems texts ++ 0x5d :: more) = some (vs, more) := by
  induction h generalizing n with
  | nil => exact absurd rfl hne
  | @cons t v texts vs ht hrest ih =>
    obtain ⟨n, rfl⟩ := Nat.exists_eq_succ_of_ne_zero (Nat.ne_of_gt (Nat.zero_lt_of_lt hn))
    cases hrest with
    | nil =>
      have hlt : t.length < n := by
        simp only [writeItems] at hn
        omega
      rw [items, writeItems, ht n _ hlt (follows_cons (by decide) _)]
      simp only [Option.map_some, Option.bind_some]
      rw [skipSpace_cons (by decide)]
      rfl
    | @cons u w texts vs hu hrest =>
      have hlt : t.length < n ∧ (writeItems (u :: texts)).length + 1 < n := by
        simp only [writeItems, List.length_cons, List.length_append] at hn ⊢
        omega
      have hlater := ih (List.cons_ne_nil _ _) hlt.2
      rw [items, writeItems, List.append_assoc, List.cons_append,
        ht n _ hlt.1 (follows_cons (by decide) _)]
      simp only [Option.map_some, Option.bind_some]
      rw [skipSpace_cons (by decide)]
      simp only [List.head?_cons, if_true, List.tail_cons]
      rw [hlater]
      rfl

/-- The text of an array of which every item can be read. -/
theorem reads_arr {texts : List Bytes} {vs : List Json}
    (h : List.Forall₂ (fun t v => Reads t (some v)) texts vs)
    (hopen : ∀ t ∈ texts, ∃ b rest, t = b :: rest ∧ isSpace b = false ∧ b ≠ 0x5d) :
    Reads (0x5b :: writeItems texts ++ [0x5d]) (some (.arr vs)) := by
  intro n more hn _
  obtain ⟨n, rfl⟩ := Nat.exists_eq_succ_of_ne_zero (Nat.ne_of_gt (Nat.zero_lt_of_lt hn))
  rw [value, List.cons_append, List.cons_append, skipSpace_cons (by decide), List.append_assoc]
  simp only [List.singleton_append, if_true]
  rw [if_neg (show ¬ ((0x5b : UInt8) = 0x22) by decide),
    if_neg (show ¬ ((0x5b : UInt8) = 0x7b) by decide)]
  cases texts with
  | nil =>
    cases h
    rfl
  | cons t rest =>
    obtain ⟨b, tail, rfl, hspace, hclose⟩ := hopen t (List.mem_cons_self ..)
    have hhead : (skipSpace (writeItems ((b :: tail) :: rest) ++ 0x5d :: more)).head? = some b := by
      cases rest with
      | nil =>
        simp only [writeItems, List.cons_append]
        rw [skipSpace_cons hspace]
        rfl
      | cons f rest =>
        simp only [writeItems, List.cons_append]
        rw [skipSpace_cons hspace]
        rfl
    have hlt : (writeItems ((b :: tail) :: rest)).length + 1 < n := by
      simp only [List.length_cons, List.length_append] at hn
      omega
    rw [hhead, if_neg (by simpa using hclose), items_write (List.cons_ne_nil _ _) h hlt]
    rfl

/-- A number without sign, fraction and exponent, as text. -/
def decimalBytes (n : Nat) : Bytes := (decimal n).map (·.toUInt8)

theorem chars_decimalBytes (n : Nat) : chars (decimalBytes n) = decimal n := by
  have hdigit : ∀ u ∈ decimal n, ((fun b : UInt8 => b.toUInt16) ∘ fun u : UInt16 => u.toUInt8) u =
      u := by
    intro u hu
    obtain ⟨_, hle⟩ := isDigitUnit_toNat (isDigitUnit_decimal n u hu)
    rw [Function.comp_apply, ← UInt16.toNat_inj, UInt8.toNat_toUInt16, UInt16.toNat_toUInt8]
    exact Nat.mod_eq_of_lt (by omega)
  rw [chars, decimalBytes, List.map_map, List.map_congr_left hdigit, List.map_id']

theorem isDigit_decimalBytes {n : Nat} {b : UInt8} (hb : b ∈ decimalBytes n) :
    48 ≤ b.toNat ∧ b.toNat ≤ 57 := by
  have hu := isDigitUnit_decimal n b.toUInt16
    (by rw [← chars_decimalBytes]; exact List.mem_map_of_mem hb)
  simpa using isDigitUnit_toNat hu

theorem decimal_ne_nil (n : Nat) : decimal n ≠ [] := by
  unfold decimal
  split_ifs with h
  · exact List.cons_ne_nil _ _
  · simp [Nat.digits_ne_nil_iff_ne_zero.mpr h]

/-- Only 0 starts with a zero. -/
theorem decimal_head {n : Nat} (h : (decimal n).head? = some 48) : (decimal n).length = 1 := by
  unfold decimal at h ⊢
  split_ifs at h ⊢ with hn
  · rfl
  · have hlast := Nat.getLast_digit_ne_zero 10 hn
    have hne := Nat.digits_ne_nil_iff_ne_zero (b := 10).mpr hn
    rw [List.head?_map, List.head?_reverse, List.getLast?_eq_some_getLast hne, Option.map_some,
      Option.some.injEq] at h
    have hlt := Nat.digits_lt_base (b := 10) (by decide) (List.getLast_mem hne)
    have hvalue := (digit_unit hlt).2
    rw [h] at hvalue
    exact absurd hvalue.symm hlast

theorem numeral_decimal {n : Nat} (hn : n ≤ 2 ^ 53) : numeral (decimal n) = some (.ofInt n) := by
  have hdigits := isDigitUnit_decimal n
  have htake : (decimal n).takeWhile isDigitUnit = decimal n := by
    rw [List.takeWhile_eq_self_iff]
    exact hdigits
  have hdrop : (decimal n).dropWhile isDigitUnit = [] := by
    rw [List.dropWhile_eq_nil_iff]
    exact hdigits
  have hsign : ∀ rest, decimal n ≠ 45 :: rest := by
    intro rest h
    have hbad := hdigits 45 (by rw [h]; exact List.mem_cons_self ..)
    exact absurd hbad (by decide)
  have hlead : ¬ (decimal n = [] ∨ ((decimal n).head? = some 48 ∧ 1 < (decimal n).length)) := by
    rintro (h | ⟨hhead, hlength⟩)
    · exact decimal_ne_nil n h
    · have hone := decimal_head hhead
      omega
  unfold numeral
  split
  rename_i negative s hmatch
  split at hmatch
  · rename_i rest heq
    exact absurd heq (hsign _)
  · obtain ⟨rfl, rfl⟩ := Prod.mk.inj hmatch
    rw [htake, hdrop, if_neg hlead]
    have hround : roundDouble (n : ℚ) = .ofInt n := by
      have habs : |(n : Int)| ≤ 2 ^ 53 := by
        rw [abs_of_nonneg (by positivity)]
        exact_mod_cast hn
      exact_mod_cast roundDouble_intCast habs
    simp [fraction, exponent, digitsNumber_decimal, hround]

theorem reads_decimal {n : Nat} (hn : n ≤ 2 ^ 53) :
    Reads (decimalBytes n) (some (.num (.ofInt n))) := by
  have hword : ∀ w, 116 ∈ w ∨ 97 ∈ w ∨ 108 ∈ w → decimalBytes n ≠ w := by
    rintro w hw rfl
    rcases hw with h | h | h <;> exact absurd (isDigit_decimalBytes h).2 (by decide)
  have hne : decimalBytes n ≠ [] := fun h => decimal_ne_nil n (List.map_eq_nil_iff.mp h)
  have hread : word (decimalBytes n) = some (.num (.ofInt n)) := by
    rw [word, if_neg (hword _ (by decide)), if_neg (hword _ (by decide)),
      if_neg (hword _ (by decide)), chars_decimalBytes, numeral_decimal hn, Option.map_some]
  rw [← hread]
  refine reads_word hne fun b hb => ?_
  have hb' := isDigit_decimalBytes hb
  simp only [isWord, UInt8.le_iff_toNat_le, decide_eq_true_eq]
  exact Or.inl hb'

theorem reads_bool (b : Bool) : Reads (ascii (if b then "true" else "false")) (some (.bool b)) := by
  cases b with
  | true => exact reads_word (w := ascii "true") (by decide) (by decide)
  | false => exact reads_word (w := ascii "false") (by decide) (by decide)

theorem setMember_fresh {ms : List (Text × Json)} {name : Text} (h : name ∉ ms.map (·.1))
    (v : Json) : setMember ms name v = ms ++ [(name, v)] := by
  rw [setMember, if_neg h]

/-- Members without a repeated name are the own properties as they are. -/
theorem ownMembers_of_nodup {ms : List (Text × Json)} (h : (ms.map (·.1)).Nodup) :
    ownMembers ms = ms := by
  induction ms using List.reverseRecOn with
  | nil => rfl
  | append_singleton ms m ih =>
    rw [List.map_append, List.nodup_append] at h
    obtain ⟨hms, -, hdisjoint⟩ := h
    have hfresh : m.1 ∉ ms.map (·.1) := fun hm => hdisjoint _ hm _ (by simp) rfl
    have hown := ih hms
    rw [ownMembers] at hown ⊢
    rw [List.foldl_append, hown]
    exact setMember_fresh hfresh m.2

end JsonText

end Js
