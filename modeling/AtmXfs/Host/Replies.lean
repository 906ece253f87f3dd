import AtmXfs.Host.Pipeline

namespace AtmXfs.Host

open Js Framing

/-- `body.toString('ascii')`: the lower seven bits of each byte. -/
def asciiText (bs : Bytes) : String := String.ofList (bs.map fun b => Char.ofNat (b.toNat % 128))

/-- ASCII, and no separator of fields. -/
def Plain (s : List Char) : Prop := ∀ c ∈ s, c.toNat < 128 ∧ c ≠ '|'

instance (s : List Char) : Decidable (Plain s) := List.decidableBAll _ s

namespace IsoReply

def fields (r : IsoReply) : Fields := fun key => r.pairs.lookup key

/-- A `|KEY=VALUE` of a response. -/
def pairText (e : String × String) : List Char := '|' :: (e.1.toList ++ '=' :: e.2.toList)

/-- The MTIs and the names of the fields that the transport answers with. -/
structure Shaped (r : IsoReply) : Prop where
  mti : r.mti ∈ ["0110", "0210", "0410", "0810"]
  keys : r.pairs.map Prod.fst ∈ [["39", "switch"], ["39", "stan", "auth", "switch"],
    ["39", "switch", "alive"], ["39", "reason"]]

end IsoReply

/-- The bytes that were written to the socket. -/
def IsoConnection.stream (c : IsoConnection) : Bytes :=
  (c.responses.map fun e => (Bridge.isoFrame (asciiBytes e.2.text)).getD []).flatten

theorem ascii_utf16 {c : Char} (h : c.toNat < 128) :
    (utf16 (String.ofList [c])).map (fun u => Char.ofNat (u.toUInt8.toNat % 128)) = [c] := by
  have hsmall : c.toNat < 0x10000 := by omega
  simp [utf16, hsmall, Nat.mod_eq_of_lt h]

/-- ASCII survives the wire. -/
theorem asciiText_asciiBytes {s : String} (h : ∀ c ∈ s.toList, c.toNat < 128) :
    asciiText (asciiBytes s) = s := by
  have hchars : ∀ cs : List Char, (∀ c ∈ cs, c.toNat < 128) →
      (utf16 (String.ofList cs)).map (fun u => Char.ofNat (u.toUInt8.toNat % 128)) = cs := by
    intro cs hcs
    induction cs with
    | nil => rfl
    | cons c cs ih =>
      obtain ⟨hc, hrest⟩ := List.forall_mem_cons.mp hcs
      have hsplit : utf16 (String.ofList (c :: cs)) =
          utf16 (String.ofList [c]) ++ utf16 (String.ofList cs) := by simp [utf16]
      rw [hsplit, List.map_append, ascii_utf16 hc, ih hrest]
      rfl
  have hall := hchars s.toList h
  rw [String.ofList_toList] at hall
  rw [asciiText, asciiBytes, List.map_map]
  exact (congrArg String.ofList hall).trans (String.ofList_toList ..)

theorem asciiText_lt (bs : Bytes) : ∀ c ∈ (asciiText bs).toList, c.toNat < 128 := by
  intro c hc
  rw [asciiText, String.toList_ofList] at hc
  obtain ⟨b, -, rfl⟩ := List.mem_map.mp hc
  have hsmall : ∀ n < 128, (Char.ofNat n).toNat < 128 := by decide
  exact hsmall _ (Nat.mod_lt _ (by decide))

theorem splitBar_append {xs : List Char} (hxs : '|' ∉ xs) (part ys : List Char) :
    splitBar part (xs ++ ys) = splitBar (xs.reverse ++ part) ys := by
  induction xs generalizing part with
  | nil => rfl
  | cons c xs ih =>
    obtain ⟨hc, hrest⟩ : '|' ≠ c ∧ '|' ∉ xs := by simpa using hxs
    have hstep : splitBar part (c :: xs ++ ys) = splitBar (c :: part) (xs ++ ys) := by
      rw [List.cons_append, splitBar]
      exact fun heq => hc heq.symm
    rw [hstep, ih hrest, List.reverse_cons, List.append_assoc]
    rfl

/-- What is written as pairs is split into these pairs. -/
theorem splitBar_pairs {pairs : List (String × String)}
    (h : ∀ e ∈ pairs, '|' ∉ e.1.toList ∧ '|' ∉ e.2.toList) (part : List Char) :
    splitBar part (pairs.flatMap IsoReply.pairText) =
      part.reverse :: pairs.map fun e => e.1.toList ++ '=' :: e.2.toList := by
  induction pairs generalizing part with
  | nil => rfl
  | cons e pairs ih =>
    obtain ⟨⟨hkey, hvalue⟩, hrest⟩ := List.forall_mem_cons.mp h
    have hpiece : '|' ∉ e.1.toList ++ '=' :: e.2.toList := by simp [hkey, hvalue]
    rw [List.flatMap_cons, IsoReply.pairText, List.cons_append, splitBar,
      splitBar_append hpiece, ih hrest, List.append_nil, List.reverse_reverse]
    rfl

theorem readPair_pair {e : String × String} (hname : e.1 ≠ "") (hproto : e.1 ≠ "__proto__")
    (hkey : '=' ∉ e.1.toList) (out : Fields) :
    readPair out (e.1.toList ++ '=' :: e.2.toList) = Function.update out e.1 (some e.2) := by
  have hall : ∀ c ∈ e.1.toList, decide (c ≠ '=') = true := by
    intro c hc
    exact decide_eq_true fun heq => hkey (heq ▸ hc)
  have htake : (e.1.toList ++ '=' :: e.2.toList).takeWhile (· ≠ '=') = e.1.toList := by
    rw [List.takeWhile_append_of_pos hall, List.takeWhile_cons_of_neg (by simp), List.append_nil]
  have hdrop : (e.1.toList ++ '=' :: e.2.toList).dropWhile (· ≠ '=') = '=' :: e.2.toList := by
    rw [List.dropWhile_append_of_pos hall, List.dropWhile_cons_of_neg (by simp)]
  obtain ⟨c, key, hcons⟩ : ∃ c key, e.1.toList = c :: key := by
    cases hlist : e.1.toList with
    | nil => exact absurd (String.toList_eq_nil_iff.mp hlist) hname
    | cons c key => exact ⟨c, key, rfl⟩
  have hkeyText : String.ofList (c :: key) = e.1 := by rw [← hcons, String.ofList_toList]
  rw [readPair, htake, hdrop, hcons]
  simp only [hkeyText, String.ofList_toList, if_neg hproto]

/-- Of pairs with different names every name reads as its value. -/
theorem foldl_update {pairs : List (String × String)} (h : (pairs.map Prod.fst).Nodup)
    (out : Fields) (key : String) :
    pairs.foldl (fun (out : Fields) e => Function.update out e.1 (some e.2)) out key =
      (pairs.lookup key).or (out key) := by
  induction pairs generalizing out with
  | nil => rfl
  | cons e pairs ih =>
    obtain ⟨hfirst, hrest⟩ := List.nodup_cons.mp h
    rw [List.foldl_cons, ih hrest, List.lookup_cons]
    by_cases hkey : key = e.1
    · have hnone : pairs.lookup key = none := by
        rw [List.lookup_eq_none_iff]
        intro e' he'
        rw [bne_iff_ne]
        intro heq
        exact hfirst (hkey ▸ heq ▸ List.mem_map_of_mem he')
      rw [hnone, hkey]
      simp
    · rw [Function.update_of_ne hkey, beq_eq_false_iff_ne.mpr hkey]

/-- The values that are read have characters of the text only, and no separator. -/
theorem value_of_parse {s : List Char} {key value : String}
    (h : parseSimpleFields s key = some value) : ∀ c ∈ value.toList, c ∈ s ∧ c ≠ '|' := by
  have hsplit : ∀ (s part : List Char), (∀ c ∈ part, c ≠ '|') →
      ∀ piece ∈ splitBar part s, ∀ c ∈ piece, (c ∈ part ∨ c ∈ s) ∧ c ≠ '|' := by
    intro s part hpart
    induction part, s using splitBar.induct with
    | case1 part =>
      intro piece hpiece c hc
      cases List.mem_singleton.mp hpiece
      have hmem := List.mem_reverse.mp hc
      exact ⟨.inl hmem, hpart c hmem⟩
    | case2 part cs ih =>
      intro piece hpiece c hc
      rw [splitBar] at hpiece
      rcases List.mem_cons.mp hpiece with rfl | hpiece
      · have hmem := List.mem_reverse.mp hc
        exact ⟨.inl hmem, hpart c hmem⟩
      · obtain ⟨hfrom, hne⟩ := ih (fun c hc => by cases hc) piece hpiece c hc
        exact ⟨.inr (List.mem_cons_of_mem _ (hfrom.resolve_left (by simp))), hne⟩
    | case3 part d cs hd ih =>
      intro piece hpiece c hc
      rw [splitBar.eq_3 part d cs hd] at hpiece
      have hgrown : ∀ c ∈ d :: part, c ≠ '|' :=
        List.forall_mem_cons.mpr ⟨fun heq => hd heq, hpart⟩
      obtain ⟨hfrom, hne⟩ := ih hgrown piece hpiece c hc
      refine ⟨?_, hne⟩
      rcases hfrom with hold | hnew
      · rcases List.mem_cons.mp hold with rfl | hold
        · exact .inr List.mem_cons_self
        · exact .inl hold
      · exact .inr (List.mem_cons_of_mem _ hnew)
  have hread : ∀ (out : Fields) (piece : List Char),
      readPair out piece key = out key ∨
        ∃ value, readPair out piece key = some (String.ofList value) ∧ ∀ c ∈ value, c ∈ piece := by
    intro out piece
    unfold readPair
    cases piece.takeWhile (· ≠ '=') with
    | nil => exact .inl rfl
    | cons c name =>
      cases hdrop : piece.dropWhile (· ≠ '=') with
      | nil => exact .inl rfl
      | cons d rest =>
        dsimp only
        split_ifs with hproto
        · exact .inl rfl
        · by_cases hkey : key = String.ofList (c :: name)
          · refine .inr ⟨rest, by rw [hkey, Function.update_self], fun c hc => ?_⟩
            have hmem : c ∈ piece.dropWhile (· ≠ '=') := by
              rw [hdrop]
              exact List.mem_cons_of_mem d hc
            exact (List.dropWhile_sublist _).subset hmem
          · exact .inl (Function.update_of_ne hkey _ _)
  have hfold : ∀ (pieces : List (List Char)) (out : Fields),
      pieces.foldl readPair out key = out key ∨
        ∃ piece ∈ pieces, ∃ value, pieces.foldl readPair out key = some (String.ofList value) ∧
          ∀ c ∈ value, c ∈ piece := by
    intro pieces
    induction pieces with
    | nil => exact fun out => .inl rfl
    | cons piece pieces ih =>
      intro out
      rw [List.foldl_cons]
      rcases ih (readPair out piece) with hsame | ⟨later, hlater, value, hvalue, hmem⟩
      · rcases hread out piece with hout | ⟨value, hvalue, hmem⟩
        · exact .inl (hsame.trans hout)
        · exact .inr ⟨piece, List.mem_cons_self, value, hsame.trans hvalue, hmem⟩
      · exact .inr ⟨later, List.mem_cons_of_mem _ hlater, value, hvalue, hmem⟩
  rcases hfold (splitBar [] s) (fun _ => none) with hnone | ⟨piece, hpiece, chars, hchars, hmem⟩
  · cases h.symm.trans hnone
  · obtain rfl : value = String.ofList chars := Option.some.inj (h.symm.trans hchars)
    intro c hc
    rw [String.toList_ofList] at hc
    obtain ⟨hfrom, hne⟩ := hsplit s [] (fun c hc => by cases hc) piece hpiece c (hmem c hc)
    exact ⟨hfrom.resolve_left (by simp), hne⟩

theorem toList_text (r : IsoReply) :
    r.text.toList = r.mti.toList ++ r.pairs.flatMap IsoReply.pairText := by
  have hjoin : ∀ pairs : List (String × String),
      (String.join (pairs.map fun e => "|" ++ e.1 ++ "=" ++ e.2)).toList =
        pairs.flatMap IsoReply.pairText := by
    intro pairs
    induction pairs with
    | nil => rfl
    | cons e pairs ih =>
      rw [List.map_cons, String.join_cons, String.toList_append, ih, List.flatMap_cons]
      simp [IsoReply.pairText]
  rw [IsoReply.text, String.toList_append, hjoin]

namespace IsoReply.Shaped

variable {r : IsoReply}

theorem mti_plain (h : r.Shaped) : r.mti.toList.length = 4 ∧ Plain r.mti.toList := by
  have hall : ∀ mti ∈ ["0110", "0210", "0410", "0810"],
      mti.toList.length = 4 ∧ Plain mti.toList := by decide
  exact hall r.mti h.mti

theorem keys_nodup (h : r.Shaped) : (r.pairs.map Prod.fst).Nodup := by
  have hall : ∀ keys ∈ [["39", "switch"], ["39", "stan", "auth", "switch"],
      ["39", "switch", "alive"], ["39", "reason"]], keys.Nodup := by decide
  exact hall _ h.keys

theorem key_plain (h : r.Shaped) {e : String × String} (he : e ∈ r.pairs) :
    Plain e.1.toList ∧ e.1 ≠ "" ∧ e.1 ≠ "__proto__" ∧ '=' ∉ e.1.toList := by
  have hall : ∀ keys ∈ [["39", "switch"], ["39", "stan", "auth", "switch"],
      ["39", "switch", "alive"], ["39", "reason"]], ∀ key ∈ keys,
      Plain key.toList ∧ key ≠ "" ∧ key ≠ "__proto__" ∧ '=' ∉ key.toList := by decide
  exact hall _ h.keys _ (List.mem_map_of_mem he)

end IsoReply.Shaped

/-- What the peer reads as the text of a response. -/
def IsoReply.read (r : IsoReply) : String := asciiText (asciiBytes r.text)

theorem mtiOf_read {r : IsoReply} (h : r.Shaped) : mtiOf r.read = r.mti := by
  have hchars : ∀ cs : List Char, (asciiText (asciiBytes (String.ofList cs))).toList =
      (utf16 (String.ofList cs)).map fun u => Char.ofNat (u.toUInt8.toNat % 128) := by
    intro cs
    simp [asciiText, asciiBytes]
  obtain ⟨hlength, hplain⟩ := h.mti_plain
  have hmti := asciiText_asciiBytes fun c hc => (hplain c hc).1
  have hsplit : r.read.toList = r.mti.toList ++
      (asciiText (asciiBytes (String.ofList (r.pairs.flatMap IsoReply.pairText)))).toList := by
    rw [IsoReply.read, ← String.ofList_toList (s := r.text), toList_text, hchars, hchars]
    conv_rhs => rw [← hmti, ← String.ofList_toList (s := r.mti), hchars]
    simp [utf16]
  rw [mtiOf, hsplit, ← hlength, List.take_left, String.ofList_toList]

/-- A response reads as the fields it was written from exactly when no value has a separator or a
character that is not ASCII. -/
theorem fieldsOf_read_iff {r : IsoReply} (h : r.Shaped) :
    fieldsOf r.read = r.fields ↔ ∀ e ∈ r.pairs, Plain e.2.toList := by
  constructor
  · intro hread e he c hc
    have hlookup : r.fields e.1 = some e.2 := by
      obtain ⟨before, after, hpairs⟩ := List.append_of_mem he
      rw [IsoReply.fields, List.lookup_eq_some_iff]
      refine ⟨before, after, hpairs, fun e' he' => bne_iff_ne.mpr fun heq => ?_⟩
      have hnodup := h.keys_nodup
      rw [hpairs, List.map_append, List.map_cons] at hnodup
      exact (List.disjoint_of_nodup_append hnodup) (List.mem_map_of_mem he')
        (by rw [← heq]; exact List.mem_cons_self)
    rw [← hread] at hlookup
    obtain ⟨hmem, hbar⟩ := value_of_parse hlookup c hc
    exact ⟨asciiText_lt _ c (List.mem_of_mem_drop hmem), hbar⟩
  · intro hvalues
    obtain ⟨hlength, hmti⟩ := h.mti_plain
    have hascii : ∀ c ∈ r.text.toList, c.toNat < 128 := by
      intro c hc
      rw [toList_text] at hc
      rcases List.mem_append.mp hc with hc | hc
      · exact (hmti c hc).1
      · obtain ⟨e, he, hce⟩ := List.mem_flatMap.mp hc
        rcases List.mem_cons.mp hce with rfl | hce
        · decide
        · rcases List.mem_append.mp hce with hkey | hvalue
          · exact ((h.key_plain he).1 c hkey).1
          · rcases List.mem_cons.mp hvalue with rfl | hvalue
            · decide
            · exact (hvalues e he c hvalue).1
    have hbars : ∀ e ∈ r.pairs, '|' ∉ e.1.toList ∧ '|' ∉ e.2.toList := by
      intro e he
      exact ⟨fun hbar => ((h.key_plain he).1 _ hbar).2 rfl, fun hbar => (hvalues e he _ hbar).2 rfl⟩
    have hfold : ∀ (pairs : List (String × String)) (out : Fields), (∀ e ∈ pairs, e ∈ r.pairs) →
        (pairs.map fun e => e.1.toList ++ '=' :: e.2.toList).foldl readPair out =
          pairs.foldl (fun (out : Fields) e => Function.update out e.1 (some e.2)) out := by
      intro pairs
      induction pairs with
      | nil => exact fun out _ => rfl
      | cons e pairs ih =>
        intro out hsub
        obtain ⟨he, hrest⟩ := List.forall_mem_cons.mp hsub
        obtain ⟨-, hname, hproto, hkey⟩ := h.key_plain he
        rw [List.map_cons, List.foldl_cons, List.foldl_cons, readPair_pair hname hproto hkey,
          ih _ hrest]
    rw [fieldsOf, IsoReply.read, asciiText_asciiBytes hascii, toList_text, ← hlength,
      List.drop_left, parseSimpleFields, splitBar_pairs hbars, List.foldl_cons]
    rw [show readPair (fun _ => none) ([] : List Char).reverse = fun _ => none from rfl,
      hfold r.pairs _ fun e he => he]
    funext key
    rw [foldl_update h.keys_nodup, Option.or_none, IsoReply.fields]

theorem immediateReply_shaped (profile : IsoSwitchProfile) (mti : String) :
    (immediateReply profile mti).Shaped := by
  unfold immediateReply
  split_ifs
  all_goals exact ⟨by simp, by simp⟩

theorem calledReply_shaped {profile : IsoSwitchProfile} {mti : String} {result : CallEnd}
    {reply : IsoReply} (h : calledReply profile mti result = some reply) : reply.Shaped := by
  cases result with
  | authenticated r =>
    simp only [calledReply, Option.ite_none_right_eq_some, Option.some.injEq] at h
    obtain ⟨-, rfl⟩ := h
    exact ⟨by simp, by simp⟩
  | authorized r =>
    simp only [calledReply, Option.ite_none_right_eq_some, Option.some.injEq] at h
    obtain ⟨-, rfl⟩ := h
    exact ⟨by simp, by simp⟩
  | thrown message =>
    simp only [calledReply, Option.ite_none_right_eq_some, Option.some.injEq] at h
    obtain ⟨-, rfl⟩ := h
    exact ⟨by simp, by simp⟩

/-- Every response that was written has the shape of one, and a frame. -/
def Written (c : IsoConnection) : Prop :=
  ∀ e ∈ c.responses, e.2.Shaped ∧ (Bridge.isoFrame (asciiBytes e.2.text)).isSome

theorem written_write {c : IsoConnection} (h : Written c) (k : Nat) {reply : IsoReply}
    (hreply : reply.Shaped) : Written (c.write k reply) := by
  unfold IsoConnection.write
  split
  · rename_i frame hframe
    intro e he
    rcases List.mem_append.mp he with hold | hnew
    · exact h e hold
    · cases List.mem_singleton.mp hnew
      exact ⟨hreply, Option.isSome_of_eq_some hframe⟩
  · exact h

theorem written_step (switchProfile : IsoSwitchId) (c : IsoConnection) (e : PipelineEvent)
    (c' : IsoConnection) (h : Written c) (hstep : pipelineStep switchProfile c e = some c') :
    Written c' := by
  cases e with
  | frame body =>
    simp only [pipelineStep] at hstep
    have hrequest : Written { c with requests := c.requests ++ [body] } := h
    split_ifs at hstep
    · have heq := Option.some.inj hstep
      subst heq
      exact h
    · have heq := Option.some.inj hstep
      subst heq
      exact written_write hrequest _ (immediateReply_shaped _ _)
  | callEnded k result =>
    simp only [pipelineStep] at hstep
    split at hstep
    · cases hstep
    · obtain ⟨reply, hreply, rfl⟩ := Option.map_eq_some_iff.mp hstep
      have hrest : Written { c with waiting := c.waiting.filter (·.1 ≠ k) } := h
      exact written_write hrest k (calledReply_shaped hreply)

/-- Whatever requests come and however their host calls end, and however the bytes written are cut
into chunks: the peer reads the responses in the order in which they were written, each with its
MTI, and with its fields exactly when none of its values has a separator or leaves ASCII. -/
theorem responses_read (switchProfile : IsoSwitchId) {events : List PipelineEvent}
    {c : IsoConnection}
    (h : Runs.exec (pipelineStep switchProfile) IsoConnection.start events = some c)
    {chunks : List Bytes} (hstream : chunks.flatten = c.stream) :
    (Bridge.handleSocket asciiText chunks).handed.map mtiOf = c.responses.map (·.2.mti) ∧
      ∀ (i n : Nat) (r : IsoReply) (body : String), c.responses[i]? = some (n, r) →
        (Bridge.handleSocket asciiText chunks).handed[i]? = some body →
        (fieldsOf body = r.fields ↔ ∀ e ∈ r.pairs, Plain e.2.toList) := by
  have hwritten : Written c := by
    refine Runs.Reaches.invariant (fun c e c' hc _ => written_step switchProfile c e c' hc) ?_
      (Runs.Reaches.of_exec events h)
    exact fun e he => by cases he
  have hframes : List.Forall₂ (IsFrame Bridge.isoFormat)
      (c.responses.map fun e => (Bridge.isoFrame (asciiBytes e.2.text)).getD [])
      (c.responses.map fun e => asciiBytes e.2.text) := by
    rw [List.forall₂_map_left_iff, List.forall₂_map_right_iff, List.forall₂_same]
    intro e he
    obtain ⟨frame, hframe⟩ := Option.isSome_iff_exists.mp (hwritten e he).2
    rw [hframe]
    exact Bridge.isFrame_isoFrame hframe
  have hhanded : (Bridge.handleSocket asciiText chunks).handed =
      c.responses.map fun e => e.2.read := by
    rw [Bridge.handleSocket, handed_receive, hstream, IsoConnection.stream, drain_frames hframes,
      List.map_map]
    rfl
  rw [hhanded]
  constructor
  · rw [List.map_map]
    apply List.map_congr_left
    intro e he
    exact mtiOf_read (hwritten e he).1
  · intro i n r body hr hbody
    rw [List.getElem?_map, hr, Option.map_some] at hbody
    cases hbody
    exact fieldsOf_read_iff (hwritten (n, r) (List.mem_of_getElem? hr)).1

/-- The refusal of a request with the MTI `|39=` overtakes the answer of a withdrawal. -/
theorem responses_read_cut :
    ∃ c, Runs.exec (pipelineStep .jalin) IsoConnection.start
        [.frame "0200|2=1|4=50000", .frame "|39=", .callEnded 0 (.authorized
          ⟨true, "00", some "A1", "000123", none, none, .jalin, "JALIN"⟩)] = some c ∧
      c.responses.map (·.2.mti) = ["0810", "0210"] ∧
      (Bridge.handleSocket asciiText [c.stream.take 3, c.stream.drop 3]).handed.map mtiOf =
        c.responses.map (·.2.mti) ∧
      ∀ (i n : Nat) (r : IsoReply) (body : String), c.responses[i]? = some (n, r) →
        (Bridge.handleSocket asciiText [c.stream.take 3, c.stream.drop 3]).handed[i]? = some body →
        (fieldsOf body = r.fields ↔ ∀ e ∈ r.pairs, Plain e.2.toList) := by
  have hrun : (Runs.exec (pipelineStep .jalin) IsoConnection.start
      [.frame "0200|2=1|4=50000", .frame "|39=", .callEnded 0 (.authorized
        ⟨true, "00", some "A1", "000123", none, none, .jalin, "JALIN"⟩)]).any (fun c =>
      c.responses.map (·.2.mti) = ["0810", "0210"]) = true := by decide +kernel
  obtain ⟨c, hc, hmtis⟩ := (Option.any_eq_true ..).mp hrun
  exact ⟨c, hc, of_decide_eq_true hmtis,
    responses_read .jalin hc (by simp)⟩

/-- A peer that sends this MTI reads an empty field 39 and not the 12 it is refused with. -/
example : fieldsOf (immediateReply (getSwitchById .jalin) "|39=").read "39" = some "" := by
  decide +kernel

end AtmXfs.Host
