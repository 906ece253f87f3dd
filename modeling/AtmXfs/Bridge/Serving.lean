import AtmXfs.Bridge.HandleFrame

namespace AtmXfs.Bridge

open Js Runs

/-- Commands belong to requests, and replies to bodies, that were handed over. -/
structure Tracked (c : BridgeConnection) : Prop where
  executing : ∀ k id, (k, id) ∈ c.executing →
    ∃ body, c.frames[k]? = some body ∧ kindOf body = .request id
  replies : ∀ k r, (k, r) ∈ c.replies → k < c.frames.length

theorem repliesTo_append (replies more : List (Nat × Reply)) (k : Nat) :
    repliesTo (replies ++ more) k = repliesTo replies k ++ repliesTo more k := by
  simp [repliesTo]

theorem repliesTo_self (rs : List Reply) (k : Nat) :
    repliesTo (rs.map fun r => (k, r)) k = rs := by
  induction rs with
  | nil => rfl
  | cons r rs ih => simpa [repliesTo] using ih

theorem repliesTo_other (rs : List Reply) {j k : Nat} (h : j ≠ k) :
    repliesTo (rs.map fun r => (j, r)) k = [] := by
  induction rs with
  | nil => rfl
  | cons r rs ih => simp [repliesTo, h]

theorem repliesTo_eq_nil {replies : List (Nat × Reply)} {k : Nat}
    (h : ∀ r, (k, r) ∉ replies) : repliesTo replies k = [] := by
  unfold repliesTo
  rw [List.filter_eq_nil_iff.mpr]
  · rfl
  · intro e he hk
    simp only [decide_eq_true_eq] at hk
    exact h e.2 (hk ▸ he)

theorem Tracked.not_executing {c : BridgeConnection} (h : Tracked c) :
    c.frames.length ∉ c.executing.map (·.1) := by
  intro hmem
  obtain ⟨e, he, hk⟩ := List.mem_map.mp hmem
  obtain ⟨body, hbody, -⟩ := h.executing e.1 e.2 he
  rw [hk] at hbody
  simp at hbody

/-- One body more: the earlier ones keep their answers, and the new one has its own. -/
theorem served_append {c : BridgeConnection} (htracked : Tracked c) (h : Served c)
    (body : Option Json) (rs : List Reply) (more : List (Nat × Option Json))
    (hmore : ∀ e ∈ more, e.1 = c.frames.length) :
    Served { c with
      frames := c.frames ++ [body]
      executing := c.executing ++ more
      replies := c.replies ++ rs.map fun r => (c.frames.length, r) } ↔
      Answered rs (c.frames.length ∈ more.map (·.1)) (kindOf body) := by
  have hnone : repliesTo c.replies c.frames.length = [] :=
    repliesTo_eq_nil fun r hr => absurd (htracked.replies _ r hr) (Nat.lt_irrefl _)
  have hnew :
      repliesTo (c.replies ++ rs.map fun r => (c.frames.length, r)) c.frames.length = rs := by
    rw [repliesTo_append, hnone, repliesTo_self, List.nil_append]
  have hexecuting : c.frames.length ∈ (c.executing ++ more).map (·.1) ↔
      c.frames.length ∈ more.map (·.1) := by
    rw [List.map_append, List.mem_append, or_iff_right htracked.not_executing]
  constructor
  · intro hserved
    have hlast := hserved.answered c.frames.length body (by simp)
    rw [hnew, hexecuting] at hlast
    exact hlast
  · intro hanswered
    refine ⟨h.running, h.settled, fun k other hother => ?_⟩
    rcases Nat.lt_or_ge k c.frames.length with hk | hk
    · rw [List.getElem?_append_left hk] at hother
      have hold := h.answered k other hother
      have hreplies : repliesTo (c.replies ++ rs.map fun r => (c.frames.length, r)) k =
          repliesTo c.replies k := by
        rw [repliesTo_append, repliesTo_other rs (by omega), List.append_nil]
      have hsame : k ∈ (c.executing ++ more).map (·.1) ↔ k ∈ c.executing.map (·.1) := by
        rw [List.map_append, List.mem_append, or_iff_left]
        intro hmem
        obtain ⟨e, he, hek⟩ := List.mem_map.mp hmem
        have hlast := hmore e he
        omega
      rw [hreplies, hsame]
      exact hold
    · have hlength := (List.getElem?_eq_some_iff.mp hother).1
      have hlast : k = c.frames.length := by
        rw [List.length_append, List.length_singleton] at hlength
        omega
      rw [hlast] at hother ⊢
      have hbody : body = other := by simpa using hother
      rw [hnew, hexecuting, ← hbody]
      exact hanswered

/-- What a body does to the connection. -/
inductive FrameMove (c : BridgeConnection) (body : Option Json) :
    Begun → BridgeConnection → Prop where
  | settled (replies : List Reply) : FrameMove c body (.settled replies) { c with
      frames := c.frames ++ [body]
      replies := c.replies ++ replies.map fun r => (c.frames.length, r.sent) }
  | executing (id : Option Json) : FrameMove c body (.executing id) { c with
      frames := c.frames ++ [body]
      executing := c.executing ++ [(c.frames.length, id)] }
  | rejected : FrameMove c body .rejected { c with
      frames := c.frames ++ [body]
      rejected := c.rejected ++ [c.frames.length] }

theorem frameMove_of_step {numberText : Number → Text} {services : List Service}
    {body : Option Json} {c c' : BridgeConnection}
    (hstep : bridgeStep numberText c (.frame services body) = some c') :
    FrameMove c body (handleFrame numberText services body) c' := by
  simp only [bridgeStep] at hstep
  split_ifs at hstep
  cases hbegun : handleFrame numberText services body with
  | settled replies =>
    rw [hbegun] at hstep
    obtain rfl := Option.some.inj hstep
    exact .settled replies
  | executing id =>
    rw [hbegun] at hstep
    obtain rfl := Option.some.inj hstep
    exact .executing id
  | rejected =>
    rw [hbegun] at hstep
    obtain rfl := Option.some.inj hstep
    exact .rejected

theorem served_frame {numberText : Number → Text} {services : List Service} {body : Option Json}
    {c c' : BridgeConnection} (htracked : Tracked c) (h : Served c)
    (hstep : bridgeStep numberText c (.frame services body) = some c') :
    Served c' ↔ Harmless body = true := by
  rw [← handleFrame_proper numberText services body]
  have hmove := frameMove_of_step hstep
  cases hbegun : handleFrame numberText services body with
  | settled replies =>
    rw [hbegun] at hmove
    cases hmove
    have hserved := served_append htracked h body (replies.map Reply.sent) [] (by simp)
    simp only [List.append_nil, List.map_map, List.map_nil, List.not_mem_nil] at hserved
    exact hserved
  | executing id =>
    rw [hbegun] at hmove
    cases hmove
    have hkind := handleFrame_executing hbegun
    have hserved := served_append htracked h body [] [(c.frames.length, id)] (by simp)
    simp only [List.map_nil, List.append_nil, List.map_cons, List.mem_singleton] at hserved
    refine hserved.trans (iff_of_true ?_ hkind)
    rw [hkind]
    exact .inl ⟨trivial, rfl⟩
  | rejected =>
    rw [hbegun] at hmove
    cases hmove
    refine iff_of_false (fun hserved => ?_) id
    have hsettled := hserved.settled
    simp at hsettled

theorem finishFrame_isSome (id : Option Json) (outcome : Outcome) :
    (finishFrame id outcome).isSome = outcome.hasMessage := by
  cases outcome with
  | returned result payload errorDetail => rfl
  | unwritable message => rfl
  | thrown message =>
    cases message with
    | none => rfl
    | some message => rfl

theorem finishFrame_response {id : Option Json} {outcome : Outcome} {r : Reply}
    (h : finishFrame id outcome = some r) :
    ∃ result payload errorDetail, r = .response id result payload errorDetail := by
  cases outcome with
  | returned result payload errorDetail => exact ⟨_, _, _, (Option.some.inj h).symm⟩
  | unwritable message => exact ⟨_, _, _, (Option.some.inj h).symm⟩
  | thrown message =>
    cases message with
    | none => cases h
    | some message => exact ⟨_, _, _, (Option.some.inj h).symm⟩

/-- The end of one command answers its request, and touches no other. -/
theorem served_reply {c : BridgeConnection} (h : Served c) {k : Nat} {id : Option Json}
    {body : Option Json} (hbody : c.frames[k]? = some body) (hkind : kindOf body = .request id)
    (hexecuting : k ∈ c.executing.map (·.1)) (r : Reply) :
    Served { c with
      executing := c.executing.filter (·.1 ≠ k)
      replies := c.replies ++ [(k, r)] } ↔
      ∃ result payload errorDetail, r = .response id result payload errorDetail := by
  have hgone : k ∉ (c.executing.filter (·.1 ≠ k)).map (·.1) := by
    intro hmem
    obtain ⟨e, he, hek⟩ := List.mem_map.mp hmem
    simp only [List.mem_filter, decide_eq_true_eq] at he
    exact he.2 hek
  have hpending : repliesTo c.replies k = [] := by
    have hanswer := h.answered k body hbody
    rw [hkind] at hanswer
    exact (hanswer.resolve_right fun hdone => hdone.1 hexecuting).2
  have hnew : repliesTo (c.replies ++ [(k, r)]) k = [r] := by
    rw [repliesTo_append, hpending]
    exact repliesTo_self [r] k
  constructor
  · intro hserved
    have hanswer := hserved.answered k body hbody
    rw [hnew, hkind] at hanswer
    obtain ⟨-, result, payload, errorDetail, hr⟩ := hanswer.resolve_left fun hwait => hgone hwait.1
    exact ⟨result, payload, errorDetail, (List.cons.inj hr).1⟩
  · rintro ⟨result, payload, errorDetail, hr⟩
    refine ⟨h.running, h.settled, fun j other hother => ?_⟩
    by_cases hj : j = k
    · rw [hj] at hother ⊢
      have heq : body = other := Option.some.inj (hbody.symm.trans hother)
      rw [hnew, ← heq, hkind, hr]
      exact .inr ⟨hgone, result, payload, errorDetail, rfl⟩
    · have hreplies : repliesTo (c.replies ++ [(k, r)]) j = repliesTo c.replies j := by
        have hother : repliesTo [(k, r)] j = [] := repliesTo_other [r] (fun hkj => hj hkj.symm)
        rw [repliesTo_append, hother, List.append_nil]
      have hsame : j ∈ (c.executing.filter (·.1 ≠ k)).map (·.1) ↔ j ∈ c.executing.map (·.1) := by
        simp only [List.mem_map, List.mem_filter, decide_eq_true_eq]
        constructor
        · rintro ⟨e, ⟨he, -⟩, hej⟩
          exact ⟨e, he, hej⟩
        · rintro ⟨e, he, hej⟩
          exact ⟨e, ⟨he, by rw [hej]; exact hj⟩, hej⟩
      rw [hreplies, hsame]
      exact h.answered j other hother

/-- Only a command under way ends. -/
theorem executed_of_step {numberText : Number → Text} {k : Nat} {outcome : Outcome}
    {c c' : BridgeConnection}
    (hstep : bridgeStep numberText c (.executed k outcome) = some c') :
    ∃ id, c.executing.lookup k = some id ∧ (k, id) ∈ c.executing ∧
      c' = match finishFrame id outcome with
        | some r => { c with
            executing := c.executing.filter (·.1 ≠ k), replies := c.replies ++ [(k, r.sent)] }
        | none => { c with
            executing := c.executing.filter (·.1 ≠ k), rejected := c.rejected ++ [k] } := by
  simp only [bridgeStep] at hstep
  split_ifs at hstep
  obtain ⟨id, hid, heq⟩ := Option.map_eq_some_iff.mp hstep
  obtain ⟨before, after, hexecuting, -⟩ := List.lookup_eq_some_iff.mp hid
  exact ⟨id, hid, by simp [hexecuting], heq.symm⟩

theorem served_executed {numberText : Number → Text} {k : Nat} {outcome : Outcome}
    {c c' : BridgeConnection} (htracked : Tracked c) (h : Served c)
    (hstep : bridgeStep numberText c (.executed k outcome) = some c') :
    Served c' ↔ Proper c (.executed k outcome) := by
  obtain ⟨id, hid, hmem, rfl⟩ := executed_of_step hstep
  obtain ⟨body, hbody, hkind⟩ := htracked.executing k id hmem
  have hwaits : k ∈ c.executing.map (·.1) := List.mem_map.mpr ⟨_, hmem, rfl⟩
  simp only [Proper, hid, Option.some.injEq, forall_eq', ← finishFrame_isSome id outcome]
  cases hfinish : finishFrame id outcome with
  | none =>
    refine iff_of_false (fun hserved => ?_) fun hproper => by simp at hproper
    have hsettled := hserved.settled
    simp at hsettled
  | some r =>
    obtain ⟨result, payload, errorDetail, rfl⟩ := finishFrame_response hfinish
    refine (served_reply h hbody hkind hwaits _).trans ?_
    rw [Option.isSome_some, and_iff_right rfl, ← map_wire_eq_self_iff]
    simp [Reply.sent]

theorem tracked_append {c : BridgeConnection} (h : Tracked c) (body : Option Json) :
    Tracked { c with frames := c.frames ++ [body] } := by
  refine ⟨fun k id hmem => ?_, fun k r hmem => ?_⟩
  · obtain ⟨request, hrequest, hkind⟩ := h.executing k id hmem
    refine ⟨request, ?_, hkind⟩
    rw [List.getElem?_append_left (List.getElem?_eq_some_iff.mp hrequest).1]
    exact hrequest
  · have hold := h.replies k r hmem
    simp only [List.length_append, List.length_singleton]
    omega

theorem tracked_frame {numberText : Number → Text} {services : List Service}
    {body : Option Json} {c c' : BridgeConnection} (h : Tracked c)
    (hstep : bridgeStep numberText c (.frame services body) = some c') : Tracked c' := by
  have hmore := tracked_append h body
  have hlast : (c.frames ++ [body])[c.frames.length]? = some body := by simp
  have hmove := frameMove_of_step hstep
  cases hbegun : handleFrame numberText services body with
  | settled replies =>
    rw [hbegun] at hmove
    cases hmove
    refine ⟨hmore.executing, fun k r hmem => ?_⟩
    rcases List.mem_append.mp hmem with hmem | hmem
    · exact hmore.replies k r hmem
    · obtain ⟨sent, -, hpair⟩ := List.mem_map.mp hmem
      cases hpair
      simp
  | executing id =>
    rw [hbegun] at hmove
    cases hmove
    refine ⟨fun k other hmem => ?_, hmore.replies⟩
    rcases List.mem_append.mp hmem with hmem | hmem
    · exact hmore.executing k other hmem
    · cases List.mem_singleton.mp hmem
      exact ⟨body, hlast, handleFrame_executing hbegun⟩
  | rejected =>
    rw [hbegun] at hmove
    cases hmove
    exact ⟨hmore.executing, hmore.replies⟩

theorem tracked_executed {numberText : Number → Text} {k : Nat} {outcome : Outcome}
    {c c' : BridgeConnection} (h : Tracked c)
    (hstep : bridgeStep numberText c (.executed k outcome) = some c') : Tracked c' := by
  obtain ⟨id, -, hmem, rfl⟩ := executed_of_step hstep
  obtain ⟨body, hbody, -⟩ := h.executing k id hmem
  have hfiltered : ∀ j other, (j, other) ∈ c.executing.filter (·.1 ≠ k) →
      ∃ body, c.frames[j]? = some body ∧ kindOf body = .request other :=
    fun j other hmem => h.executing j other (List.mem_filter.mp hmem).1
  cases finishFrame id outcome with
  | none => exact ⟨hfiltered, h.replies⟩
  | some r =>
    refine ⟨hfiltered, fun j other hmem => ?_⟩
    rcases List.mem_append.mp hmem with hmem | hmem
    · exact h.replies j other hmem
    · cases List.mem_singleton.mp hmem
      exact (List.getElem?_eq_some_iff.mp hbody).1

theorem tracked_step {numberText : Number → Text} {c c' : BridgeConnection} {e : BridgeEvent}
    (h : Tracked c) (hstep : bridgeStep numberText c e = some c') : Tracked c' := by
  cases e with
  | frame services body => exact tracked_frame h hstep
  | executed k outcome => exact tracked_executed h hstep
  | exit =>
    simp only [bridgeStep] at hstep
    split_ifs at hstep
    have heq := Option.some.inj hstep
    rw [← heq]
    exact ⟨h.executing, h.replies⟩

/-- A connection serves all its frames exactly if every step of it is proper. -/
theorem served_iff (numberText : Number → Text) (events : List BridgeEvent) :
    Always (bridgeStep numberText) Served BridgeConnection.start events ↔
      Along (bridgeStep numberText) Proper BridgeConnection.start events := by
  refine always_iff_along Tracked (fun _ _ _ h hstep => tracked_step h hstep) ?_ ?_ ?_
  · intro c e c' htracked h hstep
    cases e with
    | frame services body => exact served_frame htracked h hstep
    | executed k outcome => exact served_executed htracked h hstep
    | exit =>
      simp [bridgeStep, h.settled] at hstep
  · exact ⟨fun k id hmem => by simp [BridgeConnection.start] at hmem,
      fun k r hmem => by simp [BridgeConnection.start] at hmem⟩
  · exact ⟨rfl, rfl, fun k body hbody => by simp [BridgeConnection.start] at hbody⟩

/-- The body `null`, and an object whose type cannot be written, reject; a ping with a number out
of the range of a double is answered with another id. -/
theorem null_rejects :
    (¬∀ numberText, Always (bridgeStep numberText) Served BridgeConnection.start
      [.frame [] (some .null)]) ∧
    (¬∀ numberText, Always (bridgeStep numberText) Served BridgeConnection.start
      [.frame [] (some (.obj [(utf16 "type", .obj [(utf16 "toString", .num (.ofInt 1))])]))]) ∧
    ¬∀ numberText, Always (bridgeStep numberText) Served BridgeConnection.start
      [.frame [] (some (.obj [(utf16 "type", .str (utf16 "ping")),
        (utf16 "id", .num (.inf false))]))] := by
  refine ⟨fun h => ?_, fun h => ?_, fun h => ?_⟩
  · have hsettled := ((h fun _ => []).last (t := ⟨_, [], [], [0], false⟩) rfl).settled
    cases hsettled
  · have hsettled := ((h fun _ => []).last (t := ⟨_, [], [], [0], false⟩) rfl).settled
    cases hsettled
  · have hserved := (h fun _ => []).last (t := ⟨_, [], [(0, .pong (some .null))], [], false⟩) rfl
    have hanswer := hserved.answered 0 _ rfl
    have hpong : [Reply.pong (some .null)] = [Reply.pong (some (.num (.inf false)))] := hanswer
    cases hpong

end AtmXfs.Bridge
