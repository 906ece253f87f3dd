import AtmXfs.Lib.Framing
import AtmXfs.Lib.Json

namespace Js

open Framing (Bytes)

def ascii (s : String) : Bytes := s.toList.map fun c => c.toNat.toUInt8

/-- The text of which every byte is one character. -/
def chars (bs : Bytes) : Text := bs.map (·.toUInt16)

/-- The UTF-16 units of a code point. -/
def unitsOf (p : Nat) : Text :=
  if p < 0x10000 then [p.toUInt16]
  else [(0xd800 + (p - 0x10000) / 0x400).toUInt16, (0xdc00 + p % 0x400).toUInt16]

namespace JsonText

/-- Where the reader of a string is: before a character, behind a backslash, before the last
`more` digits of a `\u` and one, or before as many bytes of a character above 0x7F. -/
inductive Scan where
  | char
  | escape
  | hex (more value : Nat)
  | tail (more point least : Nat)

/-- What a backslash and this byte stand for. -/
def escaped (e : UInt8) : Option UInt16 :=
  if e = 0x22 ∨ e = 0x5c ∨ e = 0x2f then some e.toUInt16
  else if e = 0x62 then some 8
  else if e = 0x66 then some 12
  else if e = 0x6e then some 10
  else if e = 0x72 then some 13
  else if e = 0x74 then some 9
  else none

def hexDigit (h : UInt8) : Option Nat :=
  if 0x30 ≤ h ∧ h ≤ 0x39 then some (h.toNat - 0x30)
  else if 0x41 ≤ h ∧ h ≤ 0x46 then some (h.toNat - 0x37)
  else if 0x61 ≤ h ∧ h ≤ 0x66 then some (h.toNat - 0x57)
  else none

def put (units : Text) (read : Option (Text × Bytes)) : Option (Text × Bytes) :=
  read.map fun r => (units ++ r.1, r.2)

/-- The rest of a string behind its opening quote, and what follows it. -/
def str : Scan → Bytes → Option (Text × Bytes)
  | _, [] => none
  | .char, b :: rest =>
    if b = 0x22 then some ([], rest)
    else if b = 0x5c then str .escape rest
    else if b < 0x20 then none
    else if b < 0x80 then put [b.toUInt16] (str .char rest)
    else if 0xc2 ≤ b ∧ b ≤ 0xdf then str (.tail 0 (b.toNat % 0x20) 0x80) rest
    else if 0xe0 ≤ b ∧ b ≤ 0xef then str (.tail 1 (b.toNat % 0x10) 0x800) rest
    else if 0xf0 ≤ b ∧ b ≤ 0xf4 then str (.tail 2 (b.toNat % 8) 0x10000) rest
    else none
  | .escape, e :: rest =>
    if e = 0x75 then str (.hex 3 0) rest
    else (escaped e).bind fun u => put [u] (str .char rest)
  | .hex more value, h :: rest =>
    (hexDigit h).bind fun d =>
      match more with
      | 0 => put [(value * 16 + d).toUInt16] (str .char rest)
      | more + 1 => str (.hex more (value * 16 + d)) rest
  | .tail more point least, b :: rest =>
    if 0x80 ≤ b ∧ b < 0xc0 then
      let p := point * 64 + b.toNat % 64
      match more with
      | 0 =>
        -- neither a longer form than need be nor half of a pair
        if least ≤ p ∧ p < 0x110000 ∧ ¬ (0xd800 ≤ p ∧ p < 0xe000) then
          put (unitsOf p) (str .char rest)
        else none
      | more + 1 => str (.tail more p least) rest
    else none

def isSpace (b : UInt8) : Bool := b = 0x20 ∨ b = 0x09 ∨ b = 0x0a ∨ b = 0x0d

def skipSpace (bs : Bytes) : Bytes := bs.dropWhile isSpace

/-- The bytes of literals and numbers. -/
def isWord (b : UInt8) : Bool :=
  (0x30 ≤ b ∧ b ≤ 0x39) ∨ (0x41 ≤ b ∧ b ≤ 0x5a) ∨ (0x61 ≤ b ∧ b ≤ 0x7a) ∨ b = 0x2b ∨ b = 0x2d ∨
    b = 0x2e

/-- The exponent of a number with what is left of its text, 0 if there is none. -/
def exponent (s : Text) : Option Int :=
  match s with
  | [] => some 0
  | e :: rest =>
    let (negative, ds) := match rest with
      | 45 :: ds => (true, ds)
      | 43 :: ds => (false, ds)
      | ds => (false, ds)
    if (e = 101 ∨ e = 69) ∧ ds ≠ [] ∧ ds.all isDigitUnit then
      some (if negative then -(digitsNumber ds : Int) else digitsNumber ds)
    else none

/-- The digits behind the point of a number, if there is one, and the rest of its text. -/
def fraction (s : Text) : Option (Text × Text) :=
  match s with
  | 46 :: rest =>
    if rest.takeWhile isDigitUnit = [] then none
    else some (rest.takeWhile isDigitUnit, rest.dropWhile isDigitUnit)
  | s => some ([], s)

def numeral (s : Text) : Option Number :=
  let (negative, s) := match s with
    | 45 :: rest => (true, rest)
    | s => (false, s)
  let whole := s.takeWhile isDigitUnit
  if whole = [] ∨ (whole.head? = some 48 ∧ 1 < whole.length) then none
  else
    (fraction (s.dropWhile isDigitUnit)).bind fun (part, s) =>
      (exponent s).map fun e =>
        let q := (digitsNumber (whole ++ part) : ℚ) * (10 : ℚ) ^ (e - (part.length : Int))
        roundDouble (if negative then -q else q)

def word (w : Bytes) : Option Json :=
  if w = ascii "true" then some (.bool true)
  else if w = ascii "false" then some (.bool false)
  else if w = ascii "null" then some .null
  else (numeral (chars w)).map .num

def setMember (ms : List (Text × Json)) (name : Text) (v : Json) : List (Text × Json) :=
  if name ∈ ms.map (·.1) then ms.map fun m => if m.1 = name then (name, v) else m
  else ms ++ [(name, v)]

/-- The own properties of the object for the members of a text: the last of a name wins. -/
def ownMembers (ms : List (Text × Json)) : List (Text × Json) :=
  ms.foldl (fun own m => setMember own m.1 m.2) []

mutual

/-- A value at the start of a text, and what follows it; the fuel is more than the length. -/
def value : Nat → Bytes → Option (Json × Bytes)
  | 0, _ => none
  | n + 1, bs =>
    match skipSpace bs with
    | [] => none
    | b :: rest =>
      if b = 0x22 then (str .char rest).map fun r => (.str r.1, r.2)
      else if b = 0x7b then
        if (skipSpace rest).head? = some 0x7d then some (.obj [], (skipSpace rest).tail)
        else (members n rest).map fun r => (.obj (ownMembers r.1), r.2)
      else if b = 0x5b then
        if (skipSpace rest).head? = some 0x5d then some (.arr [], (skipSpace rest).tail)
        else (items n rest).map fun r => (.arr r.1, r.2)
      else (word ((b :: rest).takeWhile isWord)).map fun v => (v, (b :: rest).dropWhile isWord)

def members : Nat → Bytes → Option (List (Text × Json) × Bytes)
  | 0, _ => none
  | n + 1, bs =>
    match skipSpace bs with
    | [] => none
    | q :: rest =>
      if q = 0x22 then
        (str .char rest).bind fun (name, r) =>
          if (skipSpace r).head? = some 0x3a then
            (value n (skipSpace r).tail).bind fun (v, r) =>
              if (skipSpace r).head? = some 0x2c then
                (members n (skipSpace r).tail).map fun ms => ((name, v) :: ms.1, ms.2)
              else if (skipSpace r).head? = some 0x7d then
                some ([(name, v)], (skipSpace r).tail)
              else none
          else none
      else none

def items : Nat → Bytes → Option (List Json × Bytes)
  | 0, _ => none
  | n + 1, bs =>
    (value n bs).bind fun (v, r) =>
      if (skipSpace r).head? = some 0x2c then
        (items n (skipSpace r).tail).map fun vs => (v :: vs.1, vs.2)
      else if (skipSpace r).head? = some 0x5d then some ([v], (skipSpace r).tail)
      else none

end

/-- `JSON.parse` on the bytes of a text in UTF-8; `none` is a text that it refuses. -/
def parse (bs : Bytes) : Option Json :=
  (value (bs.length + 1) bs).bind fun (v, rest) => if skipSpace rest = [] then some v else none

theorem put_map {γ : Type} (units : Text) (read : Option (Text × Bytes)) (more : γ) :
    (put units read).map (fun r => (r.1, more)) =
      (read.map fun r => (r.1, more)).map fun r => (units ++ r.1, r.2) := by
  cases read <;> rfl

theorem put_eq_some {units s : Text} {read : Option (Text × Bytes)} {rest : Bytes}
    (h : put units read = some (s, rest)) :
    ∃ t, read = some (t, rest) ∧ s = units ++ t := by
  obtain ⟨⟨t, r⟩, hread, heq⟩ := Option.map_eq_some_iff.mp h
  rw [Prod.mk.injEq] at heq
  exact ⟨t, by rw [hread, ← heq.2], heq.1.symm⟩

/-- A way to write bytes into a string: as they are, or behind a backslash. -/
structure Escape where
  write : UInt8 → Bytes
  plain_or_escaped : ∀ b, (write b = [b] ∧ b ≠ 0x22 ∧ b ≠ 0x5c) ∨
    ∃ e, write b = [0x5c, e] ∧ e ≠ 0x75 ∧ escaped e = some b.toUInt16

namespace Escape

variable (E : Escape)

def text (bs : Bytes) : Bytes := bs.flatMap E.write

/-- A byte that is read as the character it is. -/
def Fine (b : UInt8) : Prop := b < 0x80 ∧ (E.write b = [b] → 0x20 ≤ b)

instance : DecidablePred E.Fine := fun _ => inferInstanceAs (Decidable (_ ∧ _))

/-- What a reader makes of the written bytes. -/
def readBack (bs : Bytes) : Option Text := (str .char (E.text bs ++ [0x22])).map (·.1)

theorem text_cons (b : UInt8) (bs : Bytes) : E.text (b :: bs) = E.write b ++ E.text bs := rfl

end Escape

theorem toNat_lt_of_escaped {e : UInt8} {u : UInt16} (h : escaped e = some u) : u < 0x80 := by
  unfold escaped at h
  split_ifs at h with hquote
  · obtain rfl := Option.some.inj h
    rcases hquote with rfl | rfl | rfl <;> decide
  all_goals
    obtain rfl := Option.some.inj h
    decide

theorem str_escaped {e : UInt8} (he : e ≠ 0x75) (rest : Bytes) :
    str .char (0x5c :: e :: rest) = (escaped e).bind fun u => put [u] (str .char rest) := by
  rw [str, if_neg (by decide), if_pos rfl, str, if_neg he]

theorem str_tail_of_not_tail {more point least : Nat} {b : UInt8} (hb : ¬ (0x80 ≤ b ∧ b < 0xc0))
    (rest : Bytes) : str (.tail more point least) (b :: rest) = none := by
  rw [str, if_neg hb]

namespace Escape

variable (E : Escape)

theorem str_fine {b : UInt8} (hb : E.Fine b) (rest : Bytes) :
    str .char (E.write b ++ rest) = put [b.toUInt16] (str .char rest) := by
  rcases E.plain_or_escaped b with ⟨hwrite, hquote, hslash⟩ | ⟨e, hwrite, hu, he⟩
  · rw [hwrite, List.singleton_append, str, if_neg hquote, if_neg hslash,
      if_neg (UInt8.not_lt.mpr (hb.2 hwrite)), if_pos hb.1]
  · rw [hwrite]
    exact (str_escaped hu rest).trans (by rw [he, Option.bind_some])

/-- What is read of written bytes does not depend on what follows the closing quote. -/
theorem str_text (bs more : Bytes) (scan : Scan)
    (hscan : scan = .char ∨ ∃ k p least, scan = .tail k p least) :
    str scan (E.text bs ++ 0x22 :: more) =
      (str scan (E.text bs ++ [0x22])).map fun r => (r.1, more) := by
  induction bs generalizing scan with
  | nil =>
    rcases hscan with rfl | ⟨k, p, least, rfl⟩
    · rfl
    · simp only [text, List.flatMap_nil, List.nil_append]
      rw [str_tail_of_not_tail (by decide), str_tail_of_not_tail (by decide)]
      rfl
  | cons b bs ih =>
    have hchar := ih .char (Or.inl rfl)
    have htail : ∀ k p least, str (.tail k p least) (E.text bs ++ 0x22 :: more) =
        (str (.tail k p least) (E.text bs ++ [0x22])).map fun r => (r.1, more) :=
      fun k p least => ih _ (Or.inr ⟨k, p, least, rfl⟩)
    have hput : ∀ units, put units (str .char (E.text bs ++ 0x22 :: more)) =
        (put units (str .char (E.text bs ++ [0x22]))).map fun r => (r.1, more) := by
      intro units
      rw [hchar, put_map]
      rfl
    simp only [text_cons, List.append_assoc]
    rcases E.plain_or_escaped b with ⟨hwrite, hquote, hslash⟩ | ⟨e, hwrite, hu, he⟩
    · rw [hwrite, List.singleton_append, List.singleton_append]
      rcases hscan with rfl | ⟨k, p, least, rfl⟩
      · simp only [str, if_neg hquote, if_neg hslash]
        split_ifs
        · rfl
        · exact hput _
        · exact htail _ _ _
        · exact htail _ _ _
        · exact htail _ _ _
        · rfl
      · cases k with
        | zero =>
          simp only [str]
          split_ifs
          · exact hput _
          · rfl
          · rfl
        | succ k =>
          simp only [str]
          split_ifs
          · exact htail _ _ _
          · rfl
    · rw [hwrite]
      rcases hscan with rfl | ⟨k, p, least, rfl⟩
      · have hleft := str_escaped hu (E.text bs ++ 0x22 :: more)
        have hright := str_escaped hu (E.text bs ++ [0x22])
        rw [he, Option.bind_some] at hleft hright
        exact hleft.trans ((hput _).trans (by rw [← hright]; rfl))
      · exact (str_tail_of_not_tail (by decide) _).trans
          (by rw [List.cons_append, str_tail_of_not_tail (by decide)]; rfl)

theorem str_readBack (bs more : Bytes) :
    str .char (E.text bs ++ 0x22 :: more) = (E.readBack bs).map fun s => (s, more) := by
  rw [E.str_text bs more .char (Or.inl rfl), readBack, Option.map_map]
  rfl

end Escape

/-- What is read behind the first byte of a character above 0x7F. -/
theorem str_tail {more point least : Nat} {bs : Bytes} {s : Text} {rest : Bytes}
    (h : str (.tail more point least) bs = some (s, rest)) :
    ∃ p cs bs' t, p < (point + 1) * 64 ^ (more + 1) ∧ bs = cs ++ bs' ∧ cs.length = more + 1 ∧
      (∀ c ∈ cs, 0x80 ≤ c) ∧ str .char bs' = some (t, rest) ∧ s = unitsOf p ++ t := by
  induction more generalizing point bs with
  | zero =>
    cases bs with
    | nil => simp [str] at h
    | cons b bs =>
      simp only [str] at h
      split_ifs at h with hb hp
      obtain ⟨t, ht, hs⟩ := put_eq_some h
      have hmod : b.toNat % 64 < 64 := Nat.mod_lt _ (by decide)
      exact ⟨_, [b], bs, t, by omega, rfl, rfl, by simpa using hb.1, ht, hs⟩
  | succ more ih =>
    cases bs with
    | nil => simp [str] at h
    | cons b bs =>
      simp only [str] at h
      split_ifs at h with hb
      obtain ⟨p, cs, bs', t, hp, rfl, hlength, hcs, ht, hs⟩ := ih h
      refine ⟨p, b :: cs, bs', t, ?_, rfl, by rw [List.length_cons, hlength], ?_, ht, hs⟩
      · have hmod : b.toNat % 64 < 64 := Nat.mod_lt _ (by decide)
        have hpoint : point * 64 + b.toNat % 64 + 1 ≤ (point + 1) * 64 := by omega
        calc p < (point * 64 + b.toNat % 64 + 1) * 64 ^ (more + 1) := hp
          _ ≤ (point + 1) * 64 * 64 ^ (more + 1) := Nat.mul_le_mul_right _ hpoint
          _ = (point + 1) * 64 ^ (more + 1 + 1) := by rw [pow_succ 64 (more + 1)]; ring
      · intro c hc
        rcases List.mem_cons.mp hc with rfl | hc
        · exact hb.1
        · exact hcs c hc

theorem length_unitsOf_le (p : Nat) : (unitsOf p).length ≤ 2 := by
  unfold unitsOf
  split_ifs
  · exact Nat.le_succ 1
  · exact le_rfl

theorem length_unitsOf_of_lt {p : Nat} (hp : p < 0x10000) : (unitsOf p).length = 1 := by
  rw [unitsOf, if_pos hp]
  rfl

namespace Escape

variable (E : Escape)

/-- Bytes above 0x7F are written as they are. -/
theorem text_eq_append {bs cs rest : Bytes} (hcs : ∀ c ∈ cs, 0x80 ≤ c)
    (h : E.text bs ++ [0x22] = cs ++ rest) :
    ∃ bs', bs = cs ++ bs' ∧ rest = E.text bs' ++ [0x22] := by
  induction cs generalizing bs with
  | nil => exact ⟨bs, rfl, h.symm⟩
  | cons c cs ih =>
    have hc := hcs c (List.mem_cons_self ..)
    cases bs with
    | nil =>
      obtain ⟨rfl, _⟩ := List.cons.inj h
      exact absurd hc (by decide)
    | cons b bs =>
      rcases E.plain_or_escaped b with ⟨hwrite, -⟩ | ⟨e, hwrite, -⟩
      · rw [text_cons, hwrite, List.append_assoc, List.singleton_append, List.cons_append] at h
        obtain ⟨rfl, hrest⟩ := List.cons.inj h
        obtain ⟨bs', rfl, hbs'⟩ := ih (fun c hc => hcs c (List.mem_cons_of_mem _ hc)) hrest
        exact ⟨bs', rfl, hbs'⟩
      · rw [text_cons, hwrite] at h
        obtain ⟨rfl, _⟩ := List.cons.inj h
        exact absurd hc (by decide)

/-- A byte above 0x7F is read with the ones behind it, and they make fewer units than bytes. -/
theorem str_high {b : UInt8} {bs : Bytes} {s : Text} {r : Bytes} (hb : 0x80 ≤ b)
    (h : str .char (b :: (E.text bs ++ [0x22])) = some (s, r)) :
    ∃ cs bs' t, bs = cs ++ bs' ∧ cs ≠ [] ∧ str .char (E.text bs' ++ [0x22]) = some (t, r) ∧
      s.length < t.length + cs.length + 1 := by
  have hquote : b ≠ 0x22 := by rintro rfl; exact absurd hb (by decide)
  have hslash : b ≠ 0x5c := by rintro rfl; exact absurd hb (by decide)
  have hspace : ¬ b < 0x20 := fun h => absurd (UInt8.lt_of_lt_of_le h (by decide)) (UInt8.not_lt.mpr hb)
  obtain ⟨more, point, least, htail, hpoint⟩ : ∃ more point least,
      str (.tail more point least) (E.text bs ++ [0x22]) = some (s, r) ∧
        (more = 0 → point < 0x20) := by
    simp only [str, if_neg hquote, if_neg hslash, if_neg hspace, if_neg (UInt8.not_lt.mpr hb)] at h
    split_ifs at h
    · exact ⟨_, _, _, h, fun _ => Nat.mod_lt _ (by decide)⟩
    · exact ⟨_, _, _, h, fun h => absurd h (by decide)⟩
    · exact ⟨_, _, _, h, fun h => absurd h (by decide)⟩
  obtain ⟨p, cs, rest, t, hp, hsplit, hlength, hcs, ht, rfl⟩ := str_tail htail
  obtain ⟨bs', rfl, rfl⟩ := E.text_eq_append hcs hsplit
  refine ⟨cs, bs', t, rfl, List.length_pos_iff.mp (by omega), ht, ?_⟩
  rw [List.length_append]
  cases more with
  | zero =>
    have hone := length_unitsOf_of_lt (p := p) (by have := hpoint rfl; omega)
    omega
  | succ more =>
    have htwo := length_unitsOf_le p
    omega

/-- Of the bytes that are not fine, a reader takes only those above 0x7F. -/
theorem high_of_not_fine {b : UInt8} (hb : ¬ E.Fine b) {rest : Bytes} {s : Text} {r : Bytes}
    (h : str .char (E.write b ++ rest) = some (s, r)) : E.write b = [b] ∧ 0x80 ≤ b := by
  rcases E.plain_or_escaped b with ⟨hwrite, hquote, hslash⟩ | ⟨e, hwrite, -, he⟩
  · refine ⟨hwrite, UInt8.not_lt.mp fun hlow => ?_⟩
    have hspace : b < 0x20 := UInt8.not_le.mp fun hle => hb ⟨hlow, fun _ => hle⟩
    rw [hwrite, List.singleton_append, str, if_neg hquote, if_neg hslash, if_pos hspace] at h
    cases h
  · have hlow := toNat_lt_of_escaped he
    refine absurd ⟨?_, fun hplain => ?_⟩ hb
    · rw [UInt16.lt_iff_toNat_lt, UInt8.toNat_toUInt16] at hlow
      exact UInt8.lt_iff_toNat_lt.mpr hlow
    · rw [hwrite] at hplain
      simp at hplain

/-- A reader never makes more characters than there were bytes. -/
theorem length_str_le {bs : Bytes} {s : Text} {r : Bytes}
    (h : str .char (E.text bs ++ [0x22]) = some (s, r)) : s.length ≤ bs.length := by
  induction hn : bs.length using Nat.strong_induction_on generalizing bs s with
  | _ n ih =>
    subst hn
    cases bs with
    | nil =>
      obtain ⟨rfl, _⟩ := Prod.mk.inj (Option.some.inj h)
      exact le_rfl
    | cons b bs =>
      rw [text_cons, List.append_assoc] at h
      by_cases hfine : E.Fine b
      · rw [E.str_fine hfine] at h
        obtain ⟨t, ht, rfl⟩ := put_eq_some h
        have hle := ih bs.length (Nat.lt_succ_self _) ht rfl
        simpa using hle
      · obtain ⟨hwrite, hhigh⟩ := E.high_of_not_fine hfine h
        rw [hwrite] at h
        obtain ⟨cs, bs', t, rfl, hcs, ht, hlt⟩ := E.str_high hhigh h
        have hle := ih bs'.length (by simp) ht rfl
        rw [List.length_cons, List.length_append]
        omega

/-- Exactly the fine bytes are read as the characters that they are. -/
theorem readBack_iff (bs : Bytes) : E.readBack bs = some (chars bs) ↔ ∀ b ∈ bs, E.Fine b := by
  constructor
  · intro h
    obtain ⟨⟨s, r⟩, hread, hs⟩ := Option.map_eq_some_iff.mp h
    obtain rfl : s = chars bs := hs
    clear h
    induction bs with
    | nil => exact fun b hb => absurd hb List.not_mem_nil
    | cons b bs ih =>
      rw [text_cons, List.append_assoc] at hread
      by_cases hfine : E.Fine b
      · rw [E.str_fine hfine] at hread
        obtain ⟨t, ht, heq⟩ := put_eq_some hread
        obtain ⟨_, rfl⟩ := List.cons.inj heq
        exact List.forall_mem_cons.mpr ⟨hfine, ih ht⟩
      · obtain ⟨hwrite, hhigh⟩ := E.high_of_not_fine hfine hread
        rw [hwrite] at hread
        obtain ⟨cs, bs', t, rfl, hcs, ht, hlt⟩ := E.str_high hhigh hread
        have hle := E.length_str_le ht
        simp only [chars, List.length_map, List.length_cons, List.length_append] at hlt
        omega
  · intro h
    induction bs with
    | nil => rfl
    | cons b bs ih =>
      obtain ⟨hb, hbs⟩ := List.forall_mem_cons.mp h
      have hrest := ih hbs
      obtain ⟨⟨s, r⟩, hread, hs⟩ := Option.map_eq_some_iff.mp hrest
      obtain rfl : s = chars bs := hs
      rw [readBack, text_cons, List.append_assoc, E.str_fine hb, hread]
      rfl

/-- Of bytes up to 0x7F only fine ones can be read at all. -/
theorem fine_of_readBack {bs : Bytes} (hlow : ∀ b ∈ bs, b < 0x80) {s : Text}
    (h : E.readBack bs = some s) : ∀ b ∈ bs, E.Fine b := by
  obtain ⟨⟨t, r⟩, hread, -⟩ := Option.map_eq_some_iff.mp h
  clear h
  induction bs generalizing t with
  | nil => exact fun b hb => absurd hb List.not_mem_nil
  | cons b bs ih =>
    obtain ⟨hb, hbs⟩ := List.forall_mem_cons.mp hlow
    rw [text_cons, List.append_assoc] at hread
    by_cases hfine : E.Fine b
    · rw [E.str_fine hfine] at hread
      obtain ⟨u, hu, -⟩ := put_eq_some hread
      exact List.forall_mem_cons.mpr ⟨hfine, ih hbs u hu⟩
    · have hhigh := (E.high_of_not_fine hfine hread).2
      exact absurd hb (UInt8.not_lt.mpr hhigh)

theorem text_eq_self {bs : Bytes} (h : ∀ b ∈ bs, E.write b = [b]) : E.text bs = bs := by
  induction bs with
  | nil => rfl
  | cons b bs ih =>
    obtain ⟨hb, hbs⟩ := List.forall_mem_cons.mp h
    rw [text_cons, hb, ih hbs, List.singleton_append]

end Escape

end JsonText

end Js
