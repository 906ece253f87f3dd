import AtmXfs.Emv.TlvElement

namespace AtmXfs.Emv

/-- The nodes' tag fields, length fields and values follow one another and make up the whole
input; so do the children of every constructed node in its value. -/
inductive Tiles : List UInt8 → List TlvNode → Prop
  | nil : Tiles [] []
  | cons {tagBytes lenBytes rest : List UInt8} {node : TlvNode} {nodes : List TlvNode} :
    IsTag tagBytes → node.tag = bytesToHex tagBytes →
    node.isConstructed = constructedTag tagBytes →
    declaredLength lenBytes = some node.value.length → node.length = node.value.length →
    (node.isConstructed = true → Tiles node.value node.children) →
    (node.isConstructed = false → node.children = []) → Tiles rest nodes →
    Tiles (tagBytes ++ lenBytes ++ node.value ++ rest) (node :: nodes)

/-- Reading element after element from `offset` gets to the end of the input. -/
inductive Scanned : List UInt8 → Int → Prop
  | done {bytes offset} : (bytes.length : Int) ≤ offset → Scanned bytes offset
  | element {bytes offset el} : offset < (bytes.length : Int) → readElement bytes offset = .ok el →
    (el.isConstructed = true → Scanned el.value 0) → Scanned bytes el.next → Scanned bytes offset

/-- Reading element after element from `offset`, constructed values before what follows them,
comes to a place where `P` holds. -/
inductive Meets (P : List UInt8 → Int → Prop) : List UInt8 → Int → Prop
  | here {bytes offset} : offset < (bytes.length : Int) → P bytes offset → Meets P bytes offset
  | inside {bytes offset el} : offset < (bytes.length : Int) →
    readElement bytes offset = .ok el → el.isConstructed = true → Meets P el.value 0 →
    Meets P bytes offset
  | after {bytes offset el} : offset < (bytes.length : Int) →
    readElement bytes offset = .ok el → (el.isConstructed = true → Scanned el.value 0) →
    Meets P bytes el.next → Meets P bytes offset

def Returns (bytes : List UInt8) (offset : Int) (nodes : List TlvNode) : Prop :=
  ∃ fuel, decodeFrom fuel bytes offset = some (.ok nodes)

def Throws (bytes : List UInt8) (offset : Int) : Prop :=
  ∃ fuel e, decodeFrom fuel bytes offset = some (.error e)

def childrenOf (fuel : Nat) (el : Element) : Option (Except TlvError (List TlvNode)) :=
  if el.isConstructed then decodeFrom fuel el.value 0 else some (.ok [])

def nodeOf (el : Element) (children : List TlvNode) : TlvNode :=
  .mk el.tag el.length el.value children el.isConstructed

theorem decodeFrom_done {bytes : List UInt8} {offset : Int} (fuel : Nat)
    (h : (bytes.length : Int) ≤ offset) : decodeFrom (fuel + 1) bytes offset = some (.ok []) := by
  simp [decodeFrom, h]

theorem decodeFrom_error {bytes : List UInt8} {offset : Int} {e : TlvError} (fuel : Nat)
    (hlt : offset < (bytes.length : Int)) (h : readElement bytes offset = .error e) :
    decodeFrom (fuel + 1) bytes offset = some (.error e) := by
  simp [decodeFrom, Int.not_le.mpr hlt, h]

theorem decodeFrom_element {bytes : List UInt8} {offset : Int} {el : Element} (fuel : Nat)
    (hlt : offset < (bytes.length : Int)) (h : readElement bytes offset = .ok el) :
    decodeFrom (fuel + 1) bytes offset =
      match childrenOf fuel el with
      | some (.ok children) =>
        match decodeFrom fuel bytes el.next with
        | some (.ok rest) => some (.ok (nodeOf el children :: rest))
        | r => r
      | r => r := by
  rw [decodeFrom, if_neg (Int.not_le.mpr hlt), h]
  rfl

/-- The ways a call can come to a result. -/
theorem decodeFrom_cases {fuel : Nat} {bytes : List UInt8} {offset : Int}
    {r : Except TlvError (List TlvNode)} (h : decodeFrom (fuel + 1) bytes offset = some r) :
    ((bytes.length : Int) ≤ offset ∧ r = .ok []) ∨
    (offset < (bytes.length : Int) ∧ ∃ e, readElement bytes offset = .error e ∧ r = .error e) ∨
    (offset < (bytes.length : Int) ∧ ∃ el, readElement bytes offset = .ok el ∧
      ((∃ e, childrenOf fuel el = some (.error e) ∧ r = .error e) ∨
       ∃ children, childrenOf fuel el = some (.ok children) ∧
        ((∃ e, decodeFrom fuel bytes el.next = some (.error e) ∧ r = .error e) ∨
         ∃ rest, decodeFrom fuel bytes el.next = some (.ok rest) ∧
          r = .ok (nodeOf el children :: rest)))) := by
  rcases Int.lt_or_le offset bytes.length with hlt | hend
  · refine .inr ?_
    cases hel : readElement bytes offset with
    | error e =>
      rw [decodeFrom_error fuel hlt hel] at h
      exact .inl ⟨hlt, e, rfl, (Option.some.inj h).symm⟩
    | ok el =>
      rw [decodeFrom_element fuel hlt hel] at h
      refine .inr ⟨hlt, el, rfl, ?_⟩
      rcases hc : childrenOf fuel el with - | e | children
      · simp [hc] at h
      · rw [hc] at h
        exact .inl ⟨e, rfl, (Option.some.inj h).symm⟩
      · refine .inr ⟨children, rfl, ?_⟩
        rcases hr : decodeFrom fuel bytes el.next with - | e | rest
        · simp [hc, hr] at h
        · rw [hc, hr] at h
          exact .inl ⟨e, rfl, (Option.some.inj h).symm⟩
        · rw [hc, hr] at h
          exact .inr ⟨rest, rfl, (Option.some.inj h).symm⟩
  · rw [decodeFrom_done fuel hend] at h
    exact .inl ⟨hend, (Option.some.inj h).symm⟩

/-- More fuel does not change a result. -/
theorem decodeFrom_mono {n m : Nat} {bytes : List UInt8} {offset : Int}
    {r : Except TlvError (List TlvNode)} (hle : n ≤ m)
    (h : decodeFrom n bytes offset = some r) : decodeFrom m bytes offset = some r := by
  induction n generalizing m bytes offset r with
  | zero => cases h
  | succ n ih =>
    obtain ⟨m, rfl⟩ : ∃ k, m = k + 1 := ⟨m - 1, by omega⟩
    have hchildren (el : Element) (c : Except TlvError (List TlvNode))
        (hc : childrenOf n el = some c) : childrenOf m el = some c := by
      unfold childrenOf at hc ⊢
      split_ifs at hc ⊢ with hk
      · exact ih (by omega) hc
      · exact hc
    rcases decodeFrom_cases h with ⟨hend, rfl⟩ | ⟨hlt, e, hel, rfl⟩ | ⟨hlt, el, hel, hrest⟩
    · exact decodeFrom_done m hend
    · exact decodeFrom_error m hlt hel
    · rw [decodeFrom_element m hlt hel]
      rcases hrest with ⟨e, hc, rfl⟩ | ⟨children, hc, ⟨e, hr, rfl⟩ | ⟨rest, hr, rfl⟩⟩
      · rw [hchildren el _ hc]
      · rw [hchildren el _ hc, ih (by omega) hr]
      · rw [hchildren el _ hc, ih (by omega) hr]

theorem childrenOf_mono {n m : Nat} {el : Element} {c : Except TlvError (List TlvNode)}
    (hle : n ≤ m) (h : childrenOf n el = some c) : childrenOf m el = some c := by
  unfold childrenOf at h ⊢
  split_ifs at h ⊢ with hk
  · exact decodeFrom_mono hle h
  · exact h

theorem childrenOf_constructed {fuel : Nat} {el : Element} (h : el.isConstructed = true) :
    childrenOf fuel el = decodeFrom fuel el.value 0 := by simp [childrenOf, h]

theorem childrenOf_primitive {fuel : Nat} {el : Element} (h : el.isConstructed = false) :
    childrenOf fuel el = some (.ok []) := by simp [childrenOf, h]

/-- A call that returns has read element after element to the end. -/
theorem scanned_of_returns {bytes : List UInt8} {offset : Int} {nodes : List TlvNode}
    (h : Returns bytes offset nodes) : Scanned bytes offset := by
  obtain ⟨fuel, h⟩ := h
  induction fuel generalizing bytes offset nodes with
  | zero => cases h
  | succ fuel ih =>
    rcases decodeFrom_cases h with ⟨hend, -⟩ | ⟨-, e, -, he⟩ | ⟨hlt, el, hel, hrest⟩
    · exact .done hend
    · cases he
    · rcases hrest with ⟨e, -, he⟩ | ⟨children, hc, ⟨e, -, he⟩ | ⟨rest, hr, -⟩⟩
      · cases he
      · cases he
      · refine .element hlt hel (fun hk => ?_) (ih hr)
        rw [childrenOf_constructed hk] at hc
        exact ih hc

theorem returns_of_scanned {bytes : List UInt8} {offset : Int} (h : Scanned bytes offset) :
    ∃ nodes, Returns bytes offset nodes := by
  induction h with
  | done hend => exact ⟨[], 1, decodeFrom_done 0 hend⟩
  | @element bytes offset el hlt hel hin hnext ihin ihnext =>
    obtain ⟨rest, n, hr⟩ := ihnext
    have hchildren : ∃ children m, childrenOf m el = some (.ok children) := by
      cases hk : el.isConstructed with
      | false => exact ⟨[], 0, childrenOf_primitive hk⟩
      | true =>
        obtain ⟨children, m, hm⟩ := ihin hk
        exact ⟨children, m, by rw [childrenOf_constructed hk, hm]⟩
    obtain ⟨children, m, hc⟩ := hchildren
    refine ⟨nodeOf el children :: rest, max m n + 1, ?_⟩
    rw [decodeFrom_element _ hlt hel, childrenOf_mono (Nat.le_max_left m n) hc,
      decodeFrom_mono (Nat.le_max_right m n) hr]

/-- Calls with different fuel that come to a result come to the same one. -/
theorem decodeFrom_unique {n m : Nat} {bytes : List UInt8} {offset : Int}
    {r q : Except TlvError (List TlvNode)} (hr : decodeFrom n bytes offset = some r)
    (hq : decodeFrom m bytes offset = some q) : r = q := by
  have h := decodeFrom_mono (Nat.le_max_left n m) hr
  rw [decodeFrom_mono (Nat.le_max_right n m) hq] at h
  exact (Option.some.inj h).symm

theorem throws_of_child {bytes : List UInt8} {offset : Int} {el : Element}
    (hlt : offset < (bytes.length : Int)) (hel : readElement bytes offset = .ok el)
    (hk : el.isConstructed = true) (h : Throws el.value 0) : Throws bytes offset := by
  obtain ⟨n, e, he⟩ := h
  refine ⟨n + 1, e, ?_⟩
  rw [decodeFrom_element n hlt hel, childrenOf_constructed hk, he]

/-- The children of an element whose value has been read to its end, if it is constructed. -/
theorem childrenOf_of_scanned {el : Element} (h : el.isConstructed = true → Scanned el.value 0) :
    ∃ fuel children, childrenOf fuel el = some (.ok children) := by
  cases hk : el.isConstructed with
  | false => exact ⟨0, [], childrenOf_primitive hk⟩
  | true =>
    obtain ⟨children, fuel, hc⟩ := returns_of_scanned (h hk)
    exact ⟨fuel, children, by rw [childrenOf_constructed hk, hc]⟩

theorem throws_of_next {bytes : List UInt8} {offset : Int} {el : Element}
    (hlt : offset < (bytes.length : Int)) (hel : readElement bytes offset = .ok el)
    (hin : el.isConstructed = true → Scanned el.value 0) (h : Throws bytes el.next) :
    Throws bytes offset := by
  obtain ⟨m, children, hc⟩ := childrenOf_of_scanned hin
  obtain ⟨n, e, he⟩ := h
  refine ⟨max m n + 1, e, ?_⟩
  rw [decodeFrom_element _ hlt hel, childrenOf_mono (Nat.le_max_left m n) hc,
    decodeFrom_mono (Nat.le_max_right m n) he]

/-- `decodeTlv` throws exactly on the inputs where reading comes to a malformed element. -/
theorem throws_iff_meets_malformed (bytes : List UInt8) (offset : Int) :
    Throws bytes offset ↔ Meets Malformed bytes offset := by
  constructor
  · rintro ⟨fuel, e, h⟩
    induction fuel generalizing bytes offset with
    | zero => cases h
    | succ fuel ih =>
      rcases decodeFrom_cases h with ⟨-, he⟩ | ⟨hlt, e', hel, -⟩ | ⟨hlt, el, hel, hrest⟩
      · cases he
      · exact .here hlt ⟨e', hel⟩
      · rcases hrest with ⟨e', hc, he⟩ | ⟨children, hc, ⟨e', hr, he⟩ | ⟨rest, -, he⟩⟩
        · cases he
          cases hk : el.isConstructed with
          | false =>
            rw [childrenOf_primitive hk] at hc
            cases hc
          | true =>
            rw [childrenOf_constructed hk] at hc
            exact .inside hlt hel hk (ih _ _ hc)
        · cases he
          refine .after hlt hel (fun hk => ?_) (ih _ _ hr)
          rw [childrenOf_constructed hk] at hc
          exact scanned_of_returns ⟨fuel, hc⟩
        · cases he
  · intro h
    induction h with
    | here hlt hbad =>
      obtain ⟨e, he⟩ := hbad
      exact ⟨1, e, decodeFrom_error 0 hlt he⟩
    | inside hlt hel hk _ ih => exact throws_of_child hlt hel hk ih
    | after hlt hel hin _ ih => exact throws_of_next hlt hel hin ih

theorem tiles_cons {bytes : List UInt8} {node : TlvNode} {nodes : List TlvNode}
    (h : Tiles bytes (node :: nodes)) :
    0 ≤ node.length ∧ (node.isConstructed = true → Tiles node.value node.children) ∧
      ∃ rest, Tiles rest nodes := by
  cases h with
  | cons _ _ _ _ hlen hin _ hrest => exact ⟨by omega, hin, _, hrest⟩

/-- A node list read past a huge length is no tiling: it has a node of negative length. -/
theorem not_tiles_of_meets_huge {bytes : List UInt8} {offset : Int}
    (h : Meets DeclaresHuge bytes offset) {nodes : List TlvNode}
    (hr : Returns bytes offset nodes) (input : List UInt8) : ¬ Tiles input nodes := by
  have hstep {bytes : List UInt8} {offset : Int} {el : Element} {nodes : List TlvNode}
      (hlt : offset < (bytes.length : Int)) (hel : readElement bytes offset = .ok el)
      (hr : Returns bytes offset nodes) : ∃ fuel children rest,
        nodes = nodeOf el children :: rest ∧ childrenOf fuel el = some (.ok children) ∧
        Returns bytes el.next rest := by
    obtain ⟨fuel, hr⟩ := hr
    cases fuel with
    | zero => cases hr
    | succ fuel =>
      rcases decodeFrom_cases hr with ⟨hend, -⟩ | ⟨-, e, -, he⟩ | ⟨-, el', hel', hrest⟩
      · omega
      · cases he
      · rw [hel] at hel'
        cases hel'
        rcases hrest with ⟨e, -, he⟩ | ⟨children, hc, ⟨e, -, he⟩ | ⟨rest, hn, he⟩⟩
        · cases he
        · cases he
        · cases he
          exact ⟨fuel, children, rest, rfl, hc, fuel, hn⟩
  induction h generalizing nodes input with
  | here hlt hhuge =>
    intro ht
    obtain ⟨el, hel, hneg⟩ := readElement_of_huge _ _ hhuge
    obtain ⟨_, children, rest, rfl, -, -⟩ := hstep hlt hel hr
    have hlen := (tiles_cons ht).1
    exact absurd hlen (Int.not_le.mpr hneg)
  | inside hlt hel hk _ ih =>
    intro ht
    obtain ⟨fuel, children, rest, rfl, hc, -⟩ := hstep hlt hel hr
    rw [childrenOf_constructed hk] at hc
    exact ih ⟨fuel, hc⟩ _ ((tiles_cons ht).2.1 hk)
  | after hlt hel _ _ ih =>
    intro ht
    obtain ⟨_, children, rest, rfl, -, hn⟩ := hstep hlt hel hr
    obtain ⟨tail, htail⟩ := (tiles_cons ht).2.2
    exact ih hn tail htail

/-- Without a huge length every turn of the loop goes forward, into a shorter value or to a
later offset, so the call comes to an end: with an error or with a tiling. -/
theorem tiles_or_throws (m : Nat) (bytes : List UInt8) (offset : Nat)
    (hm : bytes.length ≤ offset + m) (hin : offset ≤ bytes.length)
    (h : ¬ Meets DeclaresHuge bytes offset) :
    (∃ nodes, Returns bytes offset nodes ∧ Tiles (bytes.drop offset) nodes) ∨
      Throws bytes offset := by
  induction m using Nat.strong_induction_on generalizing bytes offset with
  | _ m ih =>
    rcases Int.lt_or_le offset bytes.length with hlt | hend
    · cases hel : readElement bytes offset with
      | error e => exact .inr ⟨1, e, decodeFrom_error 0 hlt hel⟩
      | ok el =>
        have hlen : 0 ≤ el.length := by
          by_contra hneg
          exact h (.here hlt (huge_of_readElement _ _ _ hel (Int.not_le.mp hneg)))
        obtain ⟨tagBytes, lenBytes, htag, hne, hhex, hcons, hdecl, hvlen, hdrop, -, hnext, hstop⟩ :=
          readElement_spec bytes offset el hel hlen
        have htpos : 0 < tagBytes.length := by
          cases tagBytes with
          | nil => exact htag.elim
          | cons b bs => simp
        have hlpos : 0 < lenBytes.length := List.length_pos_iff.mpr hne
        obtain ⟨next, hn⟩ := Int.eq_ofNat_of_zero_le (show 0 ≤ el.next by omega)
        rw [hn] at hdrop hnext hstop
        simp only [Int.toNat_natCast] at hdrop
        -- the children first, as the source does
        have hchildren : (∃ fuel children, childrenOf fuel el = some (.ok children) ∧
            (el.isConstructed = true → Tiles el.value children) ∧
            (el.isConstructed = false → children = [])) ∨ Throws bytes offset := by
          cases hk : el.isConstructed with
          | false => exact .inl ⟨0, [], childrenOf_primitive hk, by simp, fun _ => rfl⟩
          | true =>
            rcases ih el.value.length (by omega) el.value 0 (by omega) (by omega)
              (fun hmeet => h (.inside hlt hel hk hmeet)) with ⟨children, ⟨fuel, hc⟩, ht⟩ | hbad
            · refine .inl ⟨fuel, children, ?_, fun _ => by simpa using ht, by simp⟩
              rw [childrenOf_constructed hk]
              exact_mod_cast hc
            · exact .inr (throws_of_child hlt hel hk (by exact_mod_cast hbad))
        rcases hchildren with ⟨fuel, children, hc, hct, hcp⟩ | hbad
        · have hscan : el.isConstructed = true → Scanned el.value 0 := by
            intro hk
            rw [childrenOf_constructed hk] at hc
            exact scanned_of_returns ⟨fuel, hc⟩
          have hrest : ¬ Meets DeclaresHuge bytes (next : Int) := by
            intro hmeet
            exact h (.after hlt hel hscan (by rw [hn]; exact hmeet))
          rcases ih (bytes.length - next) (by omega) bytes next (by omega) (by omega) hrest with
            ⟨rest, ⟨fuel', hr⟩, ht⟩ | hbad
          · refine .inl ⟨nodeOf el children :: rest, ⟨max fuel fuel' + 1, ?_⟩, ?_⟩
            · rw [decodeFrom_element _ hlt hel, childrenOf_mono (Nat.le_max_left _ _) hc, hn,
                decodeFrom_mono (Nat.le_max_right _ _) hr]
            · rw [hdrop]
              exact @Tiles.cons _ _ _ (nodeOf el children) _ htag hhex hcons hdecl hvlen hct hcp ht
          · exact .inr (throws_of_next hlt hel hscan (by rw [hn]; exact hbad))
        · exact .inr hbad
    · refine .inl ⟨[], ⟨1, decodeFrom_done 0 hend⟩, ?_⟩
      rw [List.drop_eq_nil_of_le (by omega)]
      exact .nil

/-- What the decoder owes for an input: it comes to an end, and a node list it returns tiles
the input. -/
def DecodesOrThrows (bytes : List UInt8) : Prop :=
  ∃ fuel r, decodeTlv fuel bytes = some r ∧ ∀ nodes, r = .ok nodes → Tiles bytes nodes

/-- `decodeTlv` ends with an error or a tiling unless it meets a length of 2^31 or more and no
malformed element stops it. -/
theorem decodeTlv_iff (bytes : List UInt8) :
    DecodesOrThrows bytes ↔
      (¬ Meets DeclaresHuge bytes 0 ∨ Meets Malformed bytes 0) := by
  constructor
  · rintro ⟨fuel, r, hr, htiles⟩
    rw [← throws_iff_meets_malformed]
    cases r with
    | error e => exact .inr ⟨fuel, e, hr⟩
    | ok nodes =>
      exact .inl fun h => not_tiles_of_meets_huge h ⟨fuel, hr⟩ bytes (htiles nodes rfl)
  · rw [← throws_iff_meets_malformed]
    have hthrow : Throws bytes 0 → DecodesOrThrows bytes := by
      rintro ⟨fuel, e, he⟩
      exact ⟨fuel, .error e, he, by simp⟩
    rintro (h | h)
    · rcases tiles_or_throws bytes.length bytes 0 (by omega) (by omega) h with
        ⟨nodes, ⟨fuel, hr⟩, ht⟩ | hbad
      · refine ⟨fuel, .ok nodes, hr, ?_⟩
        rintro _ ⟨⟩
        simpa using ht
      · exact hthrow hbad
    · exact hthrow h

/-- A length of -6 behind a header of six bytes leads back to the same header. -/
theorem decodeTlv_diverges :
    ¬ DecodesOrThrows [0x01, 0x84, 0xff, 0xff, 0xff, 0xfa] := by
  rintro ⟨fuel, r, hr, -⟩
  have hnone : decodeFrom fuel [0x01, 0x84, 0xff, 0xff, 0xff, 0xfa] 0 = none := by
    clear hr
    induction fuel with
    | zero => rfl
    | succ fuel ih =>
      have hel : readElement [0x01, 0x84, 0xff, 0xff, 0xff, 0xfa] 0 =
          .ok ⟨"01", -6, [], false, 0⟩ := by decide
      rw [decodeFrom_element fuel (by decide) hel, childrenOf_primitive rfl, ih]
  rw [decodeTlv, hnone] at hr
  cases hr

end AtmXfs.Emv
