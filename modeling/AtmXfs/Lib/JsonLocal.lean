import AtmXfs.Lib.JsonReads

namespace Js

open Framing (Bytes)

namespace JsonText

/-- A string ends at its closing quote, whatever follows. -/
theorem str_append {bs : Bytes} {scan : Scan} {s : Text} {rest : Bytes}
    (h : str scan bs = some (s, rest)) (more : Bytes) :
    str scan (bs ++ more) = some (s, rest ++ more) := by
  induction bs generalizing scan s with
  | nil =>
    rw [str] at h
    cases h
  | cons b bs ih =>
    have hput : ∀ {units scan'}, put units (str scan' bs) = some (s, rest) →
        put units (str scan' (bs ++ more)) = some (s, rest ++ more) := by
      intro units scan' hread
      obtain ⟨t, ht, rfl⟩ := put_eq_some hread
      rw [ih ht]
      rfl
    rw [List.cons_append]
    cases scan with
    | char =>
      rw [str] at h ⊢
      split_ifs at h ⊢
      · cases h
        rfl
      · exact ih h
      · exact hput h
      · exact ih h
      · exact ih h
      · exact ih h
    | escape =>
      rw [str] at h ⊢
      split_ifs at h ⊢
      · exact ih h
      · obtain ⟨u, hu, hread⟩ := Option.bind_eq_some_iff.mp h
        rw [hu]
        exact hput hread
    | hex more' value =>
      rw [str] at h ⊢
      obtain ⟨d, hd, hread⟩ := Option.bind_eq_some_iff.mp h
      rw [hd]
      cases more' with
      | zero => exact hput hread
      | succ more' => exact ih hread
    | tail more' point least =>
      rw [str] at h ⊢
      split_ifs at h ⊢
      cases more' with
      | zero =>
        simp only at h ⊢
        split_ifs at h ⊢
        exact hput h
      | succ more' => exact ih h

theorem skipSpace_append {bs : Bytes} (h : skipSpace bs ≠ []) (more : Bytes) :
    skipSpace (bs ++ more) = skipSpace bs ++ more := by
  unfold skipSpace at h ⊢
  induction bs with
  | nil => exact absurd rfl h
  | cons b bs ih =>
    rw [List.cons_append, List.dropWhile_cons, List.dropWhile_cons]
    rw [List.dropWhile_cons] at h
    split_ifs at h ⊢
    · exact ih h
    · rfl

/-- A word ends before the first byte that is none of a word. -/
theorem word_append {bs more : Bytes} (h : bs.dropWhile isWord ≠ [] ∨ Follows more) :
    (bs ++ more).takeWhile isWord = bs.takeWhile isWord ∧
      (bs ++ more).dropWhile isWord = bs.dropWhile isWord ++ more := by
  induction bs with
  | nil =>
    have hmore : Follows more := h.resolve_left fun hne => hne rfl
    cases more with
    | nil => exact ⟨rfl, rfl⟩
    | cons c more =>
      have hc := hmore c rfl
      simp [hc]
  | cons b bs ih =>
    rw [List.cons_append, List.takeWhile_cons, List.takeWhile_cons, List.dropWhile_cons,
      List.dropWhile_cons]
    rw [List.dropWhile_cons] at h
    split_ifs at h ⊢
    · obtain ⟨htake, hdrop⟩ := ih h
      exact ⟨by rw [htake], hdrop⟩
    · exact ⟨rfl, rfl⟩

/-- What comes behind a bracket that is closed at once, or is not. -/
theorem head?_append {bs : Bytes} (h : skipSpace bs ≠ []) (more : Bytes) :
    (skipSpace (bs ++ more)).head? = (skipSpace bs).head? ∧
      (skipSpace (bs ++ more)).tail = (skipSpace bs).tail ++ more := by
  rw [skipSpace_append h]
  cases hbs : skipSpace bs with
  | nil => exact absurd hbs h
  | cons b rest => exact ⟨rfl, rfl⟩

theorem ne_nil_of_head? {bs : Bytes} {b : UInt8} (h : bs.head? = some b) : bs ≠ [] := by
  rintro rfl
  cases h

/-- A separator or a bracket stands behind a value, so that its text is not at its end. -/
theorem rest_ne_nil {r : Bytes} {b : UInt8} (h : (skipSpace r).head? = some b) : r ≠ [] := by
  rintro rfl
  cases h

/-- What is read at the start of a text is read of every longer text as well, with more fuel or
without: of a value, of the members behind a brace and of the items behind a bracket. -/
theorem read_append (n : Nat) :
    (∀ bs v rest more k, value n bs = some (v, rest) → rest ≠ [] ∨ Follows more →
      value (n + k) (bs ++ more) = some (v, rest ++ more)) ∧
    (∀ bs ms rest more k, members n bs = some (ms, rest) →
      members (n + k) (bs ++ more) = some (ms, rest ++ more)) ∧
    (∀ bs vs rest more k, items n bs = some (vs, rest) →
      items (n + k) (bs ++ more) = some (vs, rest ++ more)) := by
  induction n with
  | zero =>
    refine ⟨fun bs v rest more k h => ?_, fun bs ms rest more k h => ?_,
      fun bs vs rest more k h => ?_⟩
    · rw [value] at h
      cases h
    · rw [members] at h
      cases h
    · rw [items] at h
      cases h
  | succ n ih =>
    obtain ⟨hvalue, hmembers, hitems⟩ := ih
    refine ⟨fun bs v rest more k h hend => ?_, fun bs ms rest more k h => ?_,
      fun bs vs rest more k h => ?_⟩
    · rw [Nat.add_right_comm, value]
      rw [value] at h
      cases hbs : skipSpace bs with
      | nil =>
        rw [hbs] at h
        cases h
      | cons b bs' =>
        rw [hbs] at h
        rw [skipSpace_append (by rw [hbs]; exact List.cons_ne_nil _ _), hbs]
        simp only [List.cons_append] at h ⊢
        split_ifs at h with hquote hbrace hclosed hbracket hclosed
        · rw [if_pos hquote]
          obtain ⟨⟨s, r⟩, hstr, heq⟩ := Option.map_eq_some_iff.mp h
          cases heq
          rw [str_append hstr]
          rfl
        · cases h
          obtain ⟨hhead, htail⟩ := head?_append (ne_nil_of_head? hclosed) more
          rw [if_neg hquote, if_pos hbrace, hhead, if_pos hclosed, htail]
        · obtain ⟨⟨ms, r⟩, hms, heq⟩ := Option.map_eq_some_iff.mp h
          cases heq
          have hne : skipSpace bs' ≠ [] := by
            intro hnil
            cases n with
            | zero =>
              rw [members] at hms
              cases hms
            | succ n =>
              rw [members, hnil] at hms
              cases hms
          obtain ⟨hhead, -⟩ := head?_append hne more
          rw [if_neg hquote, if_pos hbrace, hhead, if_neg hclosed, hmembers _ _ _ more k hms]
          rfl
        · cases h
          obtain ⟨hhead, htail⟩ := head?_append (ne_nil_of_head? hclosed) more
          rw [if_neg hquote, if_neg hbrace, if_pos hbracket, hhead, if_pos hclosed, htail]
        · obtain ⟨⟨vs, r⟩, hvs, heq⟩ := Option.map_eq_some_iff.mp h
          cases heq
          have hne : skipSpace bs' ≠ [] := by
            intro hnil
            cases n with
            | zero =>
              rw [items] at hvs
              cases hvs
            | succ n =>
              rw [items] at hvs
              obtain ⟨⟨v, r'⟩, hv, -⟩ := Option.bind_eq_some_iff.mp hvs
              cases n with
              | zero =>
                rw [value] at hv
                cases hv
              | succ n =>
                rw [value, hnil] at hv
                cases hv
          obtain ⟨hhead, -⟩ := head?_append hne more
          rw [if_neg hquote, if_neg hbrace, if_pos hbracket, hhead, if_neg hclosed,
            hitems _ _ _ more k hvs]
          rfl
        · obtain ⟨w, hw, heq⟩ := Option.map_eq_some_iff.mp h
          cases heq
          obtain ⟨htake, hdrop⟩ := word_append hend
          rw [if_neg hquote, if_neg hbrace, if_neg hbracket]
          rw [List.cons_append] at htake hdrop
          rw [htake, hw, hdrop]
          rfl
    · rw [Nat.add_right_comm, members]
      rw [members] at h
      cases hbs : skipSpace bs with
      | nil =>
        rw [hbs] at h
        cases h
      | cons q bs' =>
        rw [hbs] at h
        rw [skipSpace_append (by rw [hbs]; exact List.cons_ne_nil _ _), hbs]
        simp only [List.cons_append] at h ⊢
        split_ifs at h with hquote
        rw [if_pos hquote]
        obtain ⟨⟨name, r⟩, hname, h⟩ := Option.bind_eq_some_iff.mp h
        rw [str_append hname, Option.bind_some]
        simp only at h ⊢
        split_ifs at h with hcolon
        obtain ⟨hhead, htail⟩ := head?_append (ne_nil_of_head? hcolon) more
        rw [hhead, if_pos hcolon, htail]
        obtain ⟨⟨v, r'⟩, hv, h⟩ := Option.bind_eq_some_iff.mp h
        simp only at h
        split_ifs at h with hcomma hclose
        · rw [hvalue _ _ _ more k hv (.inl (rest_ne_nil hcomma)), Option.bind_some]
          obtain ⟨hhead', htail'⟩ := head?_append (ne_nil_of_head? hcomma) more
          obtain ⟨⟨later, r''⟩, hlater, heq⟩ := Option.map_eq_some_iff.mp h
          cases heq
          simp only
          rw [hhead', if_pos hcomma, htail', hmembers _ _ _ more k hlater]
          rfl
        · rw [hvalue _ _ _ more k hv (.inl (rest_ne_nil hclose)), Option.bind_some]
          obtain ⟨hhead', htail'⟩ := head?_append (ne_nil_of_head? hclose) more
          cases h
          simp only
          rw [hhead', if_neg hcomma, if_pos hclose, htail']
    · rw [Nat.add_right_comm, items]
      rw [items] at h
      obtain ⟨⟨v, r⟩, hv, h⟩ := Option.bind_eq_some_iff.mp h
      simp only at h
      split_ifs at h with hcomma hclose
      · rw [hvalue _ _ _ more k hv (.inl (rest_ne_nil hcomma)), Option.bind_some]
        obtain ⟨hhead, htail⟩ := head?_append (ne_nil_of_head? hcomma) more
        obtain ⟨⟨later, r'⟩, hlater, heq⟩ := Option.map_eq_some_iff.mp h
        cases heq
        simp only
        rw [hhead, if_pos hcomma, htail, hitems _ _ _ more k hlater]
        rfl
      · rw [hvalue _ _ _ more k hv (.inl (rest_ne_nil hclose)), Option.bind_some]
        obtain ⟨hhead, htail⟩ := head?_append (ne_nil_of_head? hclose) more
        cases h
        simp only
        rw [hhead, if_neg hcomma, if_pos hclose, htail]

theorem str_suffix {bs : Bytes} {scan : Scan} {s : Text} {rest : Bytes}
    (h : str scan bs = some (s, rest)) : rest <:+ bs := by
  induction bs generalizing scan s with
  | nil =>
    rw [str] at h
    cases h
  | cons b bs ih =>
    have hput : ∀ {units scan'},
        put units (str scan' bs) = some (s, rest) → rest <:+ (b :: bs) := by
      intro units scan' hread
      obtain ⟨t, ht, -⟩ := put_eq_some hread
      exact (ih ht).trans (List.suffix_cons b bs)
    cases scan with
    | char =>
      rw [str] at h
      split_ifs at h
      · cases h
        exact List.suffix_cons b _
      · exact (ih h).trans (List.suffix_cons b bs)
      · exact hput h
      · exact (ih h).trans (List.suffix_cons b bs)
      · exact (ih h).trans (List.suffix_cons b bs)
      · exact (ih h).trans (List.suffix_cons b bs)
    | escape =>
      rw [str] at h
      split_ifs at h
      · exact (ih h).trans (List.suffix_cons b bs)
      · obtain ⟨u, -, hread⟩ := Option.bind_eq_some_iff.mp h
        exact hput hread
    | hex more value =>
      rw [str] at h
      obtain ⟨d, -, hread⟩ := Option.bind_eq_some_iff.mp h
      cases more with
      | zero => exact hput hread
      | succ more => exact (ih hread).trans (List.suffix_cons b bs)
    | tail more point least =>
      rw [str] at h
      split_ifs at h
      cases more with
      | zero =>
        simp only at h
        split_ifs at h
        exact hput h
      | succ more => exact (ih h).trans (List.suffix_cons b bs)

theorem skipSpace_suffix (bs : Bytes) : skipSpace bs <:+ bs := List.dropWhile_suffix _

theorem tail_skipSpace_suffix (bs : Bytes) : (skipSpace bs).tail <:+ bs :=
  (List.tail_suffix _).trans (skipSpace_suffix bs)

/-- What is left when something has been read stands at the end of the text. -/
theorem read_suffix (n : Nat) :
    (∀ bs v rest, value n bs = some (v, rest) → rest <:+ bs) ∧
    (∀ bs ms rest, members n bs = some (ms, rest) → rest <:+ bs) ∧
    (∀ bs vs rest, items n bs = some (vs, rest) → rest <:+ bs) := by
  induction n with
  | zero =>
    refine ⟨fun bs v rest h => ?_, fun bs ms rest h => ?_, fun bs vs rest h => ?_⟩
    · rw [value] at h
      cases h
    · rw [members] at h
      cases h
    · rw [items] at h
      cases h
  | succ n ih =>
    obtain ⟨hvalue, hmembers, hitems⟩ := ih
    refine ⟨fun bs v rest h => ?_, fun bs ms rest h => ?_, fun bs vs rest h => ?_⟩
    · rw [value] at h
      cases hbs : skipSpace bs with
      | nil =>
        rw [hbs] at h
        cases h
      | cons b bs' =>
        rw [hbs] at h
        have hthen : ∀ {r : Bytes}, r <:+ bs' → r <:+ bs := fun hr =>
          hr.trans ((List.suffix_cons b bs').trans (hbs ▸ skipSpace_suffix bs))
        simp only at h
        split_ifs at h
        · obtain ⟨⟨s, r⟩, hstr, heq⟩ := Option.map_eq_some_iff.mp h
          cases heq
          exact hthen (str_suffix hstr)
        · cases h
          exact hthen (tail_skipSpace_suffix bs')
        · obtain ⟨⟨ms, r⟩, hms, heq⟩ := Option.map_eq_some_iff.mp h
          cases heq
          exact hthen (hmembers _ _ _ hms)
        · cases h
          exact hthen (tail_skipSpace_suffix bs')
        · obtain ⟨⟨vs, r⟩, hvs, heq⟩ := Option.map_eq_some_iff.mp h
          cases heq
          exact hthen (hitems _ _ _ hvs)
        · obtain ⟨w, -, heq⟩ := Option.map_eq_some_iff.mp h
          cases heq
          exact (List.dropWhile_suffix _).trans (hbs ▸ skipSpace_suffix bs)
    · rw [members] at h
      cases hbs : skipSpace bs with
      | nil =>
        rw [hbs] at h
        cases h
      | cons q bs' =>
        rw [hbs] at h
        simp only at h
        split_ifs at h
        obtain ⟨⟨name, r⟩, hname, h⟩ := Option.bind_eq_some_iff.mp h
        simp only at h
        split_ifs at h
        obtain ⟨⟨v, r'⟩, hv, h⟩ := Option.bind_eq_some_iff.mp h
        have hthen : ∀ {t : Bytes}, t <:+ r' → t <:+ bs := fun ht =>
          ht.trans ((hvalue _ _ _ hv).trans ((tail_skipSpace_suffix r).trans
            ((str_suffix hname).trans ((List.suffix_cons q bs').trans
              (hbs ▸ skipSpace_suffix bs)))))
        simp only at h
        split_ifs at h
        · obtain ⟨⟨later, r''⟩, hlater, heq⟩ := Option.map_eq_some_iff.mp h
          cases heq
          exact hthen ((hmembers _ _ _ hlater).trans (tail_skipSpace_suffix r'))
        · cases h
          exact hthen (tail_skipSpace_suffix r')
    · rw [items] at h
      obtain ⟨⟨v, r⟩, hv, h⟩ := Option.bind_eq_some_iff.mp h
      simp only at h
      split_ifs at h
      · obtain ⟨⟨later, r'⟩, hlater, heq⟩ := Option.map_eq_some_iff.mp h
        cases heq
        exact (hitems _ _ _ hlater).trans ((tail_skipSpace_suffix r).trans (hvalue _ _ _ hv))
      · cases h
        exact (tail_skipSpace_suffix r).trans (hvalue _ _ _ hv)

/-- A text that is read as a whole is read the same within another, if it does not end in a
blank. -/
theorem reads_of_parse {text : Bytes} {v : Json} (h : parse text = some v) {b : UInt8}
    (hlast : text.getLast? = some b) (hb : isSpace b = false) : Reads text (some v) := by
  obtain ⟨⟨v', rest⟩, hvalue, hrest⟩ := Option.bind_eq_some_iff.mp h
  simp only at hrest
  split_ifs at hrest with hblank
  cases hrest
  have hnone : rest = [] := by
    by_contra hne
    obtain ⟨front, hfront⟩ := (read_suffix _).1 _ _ _ hvalue
    have hend : rest.getLast? = some b := by
      rw [← hfront, List.getLast?_append_of_ne_nil _ hne] at hlast
      exact hlast
    have hspace := List.dropWhile_eq_nil_iff.mp hblank b (List.mem_of_getLast? hend)
    rw [hb] at hspace
    cases hspace
  intro n more hn hmore
  obtain ⟨k, rfl⟩ := Nat.exists_eq_add_of_le (Nat.succ_le_of_lt hn)
  rw [hnone] at hvalue
  exact (read_append _).1 _ _ _ more k hvalue (.inr hmore)

end JsonText

end Js
