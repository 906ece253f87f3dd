import AtmXfs.Bridge.Correlation
import Mathlib.Algebra.Order.BigOperators.Group.Finset

namespace AtmXfs.Bridge

open Js JsonText Dll Runs
open Framing (Bytes)

/-- What a step changes of the k-th call, apart from its id and request. -/
inductive CallEffect (s t : Exchange) (k : Nat) (a : Exchange.Action) : Prop
  | begins (args : RequestArgs) (ha : a = .call args) (hcall : t.call k = { Call.start with
      id := (t.call k).id, request := (t.call k).request, pc := .toRegister })
  | turns (flag : Bool) (ha : a = .caller k flag)
      (hturn : CallTurn (s.call k) flag (t.call k).pc (t.call k).result)
      (hresponse : (t.call k).response = (s.call k).response)
  | keeps (hpc : (t.call k).pc = (s.call k).pc) (hresult : (t.call k).result = (s.call k).result)
      (hdetail : (t.call k).response.errorDetail = (s.call k).response.errorDetail)
  | wakes (ha : a = .wake k) (hleft : k ∈ s.reader.left) (hpc : (t.call k).pc = (s.call k).pc)
      (hresult : (t.call k).result = (s.call k).result)

theorem callEffect_same {s t : Exchange} {k : Nat} {a : Exchange.Action}
    (h : t.call k = s.call k) : CallEffect s t k a := by
  apply CallEffect.keeps
  · rw [h]
  · rw [h]
  · rw [h]

theorem fill_call (s : Exchange) (n k : Nat) (body : Bytes) : (s.fill n k body).call k =
    { s.call k with
      response := { (s.call k).response with result := findResult body, payloadJson := body }
      done := true } := setCall_same ..

theorem fail_call (s : Exchange) (k : Nat) : (s.fail k).call k =
    { s.call k with
      response :=
        { (s.call k).response with result := -5, errorDetail := ascii "bridge disconnected" }
      done := true } := setCall_same ..

theorem callEffect_fill (s : Exchange) (n k j : Nat) (body : Bytes) (a : Exchange.Action) :
    CallEffect s (s.fill n j body) k a := by
  by_cases hk : k = j
  · subst hk
    apply CallEffect.keeps
    · rw [fill_call]
    · rw [fill_call]
    · rw [fill_call]
  · exact callEffect_same (setCall_other s hk _)

theorem callEffect_readerStep {s t : Exchange} (h : s.readerStep = some t) (k : Nat) :
    CallEffect s t k .reader := by
  unfold Exchange.readerStep at h
  cases hreader : s.reader with
  | stopped =>
    rw [hreader] at h
    cases h
  | reading =>
    rw [hreader] at h
    cases h
  | toMatch n =>
    rw [hreader] at h
    obtain ⟨f, -, hstep⟩ := Option.map_eq_some_iff.mp h
    simp only at hstep
    cases hfind : s.pending.find? fun e => e.1 = findField f.body (ascii "id") with
    | some e =>
      rw [hfind] at hstep
      subst hstep
      exact callEffect_same rfl
    | none =>
      rw [hfind] at hstep
      subst hstep
      exact callEffect_same rfl
  | toFill n j =>
    rw [hreader] at h
    simp only at h
    split_ifs at h
    obtain ⟨f, -, rfl⟩ := Option.map_eq_some_iff.mp h
    exact callEffect_fill s n k j f.body .reader
  | closing rest =>
    rw [hreader] at h
    cases rest with
    | nil =>
      cases h
      exact callEffect_same rfl
    | cons j rest => cases h

theorem receive_call (s : Exchange) (f : ServerFrame) (k : Nat) :
    (s.receive f).call k = s.call k := by
  unfold Exchange.receive
  split_ifs <;> rfl

theorem callEffect_of_step {s t : Exchange} {a : Exchange.Action} (h : s.step a = some t)
    (k : Nat) : CallEffect s t k a := by
  cases a with
  | call args =>
    cases h
    by_cases hk : k = s.count
    · have hself : (s.beginCall args).call s.count =
          { Call.start with id := makeId s.nextId, request := requestBody (makeId s.nextId) args,
                            pc := .toRegister } := Function.update_self ..
      apply CallEffect.begins args rfl
      rw [hk, hself]
    · exact callEffect_same (Function.update_of_ne hk ..)
  | caller j flag =>
    have hadvance := callerStep_move h
    by_cases hk : k = j
    · subst hk
      exact .turns flag rfl hadvance.turn hadvance.response
    · exact callEffect_same (hadvance.others k hk)
  | connect =>
    simp only [Exchange.step] at h
    split_ifs at h
    cases h
    exact callEffect_same rfl
  | receive f =>
    simp only [Exchange.step] at h
    split_ifs at h
    cases h
    exact callEffect_same (receive_call s f k)
  | disconnect =>
    simp only [Exchange.step] at h
    split_ifs at h
    cases h
    exact callEffect_same rfl
  | reader => exact callEffect_readerStep h k
  | wake j =>
    obtain ⟨rest, hreader, hj, -, rfl⟩ := wake_cases h
    by_cases hk : k = j
    · subst hk
      apply CallEffect.wakes rfl
      · rw [hreader]
        exact hj
      · change ((s.fail k).call k).pc = _
        rw [fail_call]
      · change ((s.fail k).call k).result = _
        rw [fail_call]
    · exact callEffect_same (setCall_other s hk _)

/-- The send of the k-th call fails. -/
def SendFails (k : Nat) (s : Exchange) (a : Exchange.Action) : Prop :=
  (s.call k).pc = .toSend ∧ a = .caller k false

/-- The time of the k-th call is over while nothing has come for it. -/
def TimesOut (k : Nat) (s : Exchange) (a : Exchange.Action) : Prop :=
  (s.call k).pc = .waiting ∧ (s.call k).done = false ∧ a = .caller k true

/-- After the end of a connection the reader wakes the slot of the k-th call. -/
def Wakes (k : Nat) (s : Exchange) (a : Exchange.Action) : Prop :=
  k ∈ s.reader.left ∧ a = .wake k

/-- The k-th call is at that place or has returned with that error. -/
def AtOrAfter (k : Nat) (pc : CallPc) (detail : Bytes) (s : Exchange) : Prop :=
  (s.call k).pc = pc ∨ ∃ resp, (s.call k).result = some resp ∧ resp.errorDetail = detail

theorem AtOrAfter.of_eq {s t : Exchange} {k : Nat} {pc : CallPc} {detail : Bytes}
    (h : AtOrAfter k pc detail t) (hpc : (t.call k).pc = (s.call k).pc)
    (hresult : (t.call k).result = (s.call k).result) : AtOrAfter k pc detail s := by
  rw [AtOrAfter, hpc, hresult] at h
  exact h

theorem CallTurn.pc_toWithdraw {c : Call} {flag : Bool} {pc : CallPc}
    {result : Option BridgeResponse} (h : CallTurn c flag pc result) (hpc : pc = .toWithdraw) :
    c.pc = .toSend ∧ flag = false := by
  cases h with
  | fails h hflag => exact ⟨h, hflag⟩
  | registers | sends | withdraws | takes | givesUp | timesOut => cases hpc

theorem CallTurn.pc_gaveUp {c : Call} {flag : Bool} {pc : CallPc}
    {result : Option BridgeResponse} (h : CallTurn c flag pc result) (hpc : pc = .gaveUp) :
    c.pc = .waiting ∧ c.done = false ∧ flag = true := by
  cases h with
  | givesUp h hdone hflag => exact ⟨h, hdone, hflag⟩
  | registers | sends | fails | withdraws | takes | timesOut => cases hpc

theorem details_ne {s : Exchange} (hs : Inv s) {k : Nat} {detail : Bytes}
    (hempty : detail ≠ []) (hother : detail ≠ ascii "bridge disconnected") :
    (s.call k).response.errorDetail ≠ detail := by
  intro heq
  rcases hs.details k with h | h
  · exact hempty (heq.symm.trans h)
  · exact hother (heq.symm.trans h)

theorem sendFails_of_step (k : Nat) {s t : Exchange} {a : Exchange.Action} (hs : Inv s)
    (h : s.step a = some t) (ht : AtOrAfter k .toWithdraw (ascii "send failed") t) :
    AtOrAfter k .toWithdraw (ascii "send failed") s ∨ SendFails k s a := by
  cases callEffect_of_step h k with
  | begins _ _ hcall =>
    rw [AtOrAfter, hcall] at ht
    simp [Call.start] at ht
  | keeps hpc hresult => exact Or.inl (ht.of_eq hpc hresult)
  | wakes _ _ hpc hresult => exact Or.inl (ht.of_eq hpc hresult)
  | turns flag ha hturn =>
    rcases ht with hpc | ⟨resp, hresp, hdetail⟩
    · obtain ⟨hsend, rfl⟩ := hturn.pc_toWithdraw hpc
      exact Or.inr ⟨hsend, ha⟩
    · rcases hturn.result hresp with hold | ⟨-, rfl⟩ | ⟨hpc, -⟩ | ⟨-, rfl⟩
      · exact Or.inl (Or.inr ⟨resp, hold, hdetail⟩)
      · exact absurd hdetail (details_ne hs (by decide) (by decide))
      · exact Or.inl (Or.inl hpc)
      · exact absurd hdetail (by decide)

theorem timesOut_of_step (k : Nat) {s t : Exchange} {a : Exchange.Action} (hs : Inv s)
    (h : s.step a = some t) (ht : AtOrAfter k .gaveUp (ascii "response timeout") t) :
    AtOrAfter k .gaveUp (ascii "response timeout") s ∨ TimesOut k s a := by
  cases callEffect_of_step h k with
  | begins _ _ hcall =>
    rw [AtOrAfter, hcall] at ht
    simp [Call.start] at ht
  | keeps hpc hresult => exact Or.inl (ht.of_eq hpc hresult)
  | wakes _ _ hpc hresult => exact Or.inl (ht.of_eq hpc hresult)
  | turns flag ha hturn =>
    rcases ht with hpc | ⟨resp, hresp, hdetail⟩
    · obtain ⟨hwaiting, hdone, rfl⟩ := hturn.pc_gaveUp hpc
      exact Or.inr ⟨hwaiting, hdone, ha⟩
    · rcases hturn.result hresp with hold | ⟨-, rfl⟩ | ⟨-, rfl⟩ | ⟨hpc, -⟩
      · exact Or.inl (Or.inr ⟨resp, hold, hdetail⟩)
      · exact absurd hdetail (details_ne hs (by decide) (by decide))
      · exact absurd hdetail (by decide)
      · exact Or.inl (Or.inl hpc)

/-- The slot of the k-th call was woken when the connection ended, or the call has returned with
that. -/
def WokenOrAfter (k : Nat) (s : Exchange) : Prop :=
  (s.call k).response.errorDetail = ascii "bridge disconnected" ∨
    ∃ resp, (s.call k).result = some resp ∧ resp.errorDetail = ascii "bridge disconnected"

theorem not_wokenOrAfter_start (k : Nat) : ¬WokenOrAfter k Exchange.start := by
  rintro (h | ⟨resp, h, -⟩)
  · have hempty : ([] : Bytes) ≠ ascii "bridge disconnected" := by decide
    exact hempty h
  · cases h

theorem wakes_of_step (k : Nat) {s t : Exchange} {a : Exchange.Action} (h : s.step a = some t)
    (ht : WokenOrAfter k t) : WokenOrAfter k s ∨ Wakes k s a := by
  cases callEffect_of_step h k with
  | begins _ _ hcall =>
    rw [WokenOrAfter, hcall] at ht
    exact absurd ht (not_wokenOrAfter_start k)
  | keeps hpc hresult hdetail =>
    rw [WokenOrAfter, hresult, hdetail] at ht
    exact Or.inl ht
  | wakes ha hleft => exact Or.inr ⟨hleft, ha⟩
  | turns flag ha hturn hresponse =>
    rcases ht with hslot | ⟨resp, hresp, hdetail⟩
    · rw [hresponse] at hslot
      exact Or.inl (Or.inl hslot)
    · rcases hturn.result hresp with hold | ⟨-, rfl⟩ | ⟨-, rfl⟩ | ⟨-, rfl⟩
      · exact Or.inl (Or.inr ⟨resp, hold, hdetail⟩)
      · exact Or.inl (Or.inl hdetail)
      · exact absurd hdetail (by decide)
      · exact absurd hdetail (by decide)

/-- Responses are told apart by the ids of their requests, in a run that has come to `s`. -/
structure Correlated (as : List Exchange.Action) (s : Exchange) : Prop where
  /-- What a call returned is the body of a response to its own request, or -5 after its send
  failed or the connection ended, or -6 after its time was over. -/
  returned : ∀ k resp, (s.call k).result = some resp →
    (∃ n f, s.received[n]? = some f ∧ findField f.body (ascii "type") = ascii "response" ∧
      findField f.body (ascii "id") = findField (s.call k).request (ascii "id") ∧
      (n, k) ∈ s.deliveries ∧ resp.payloadJson = f.body ∧ resp.result = findResult f.body) ∨
    (resp.result = -5 ∧ (Occurs Exchange.step (SendFails k) Exchange.start as ∨
      Occurs Exchange.step (Wakes k) Exchange.start as)) ∨
    (resp.result = -6 ∧ Occurs Exchange.step (TimesOut k) Exchange.start as)
  /-- No response is delivered twice. -/
  once : (s.deliveries.map Prod.fst).Nodup
  /-- A response is not delivered to a call other than the one whose id it has. -/
  own : ∀ n k f, (n, k) ∈ s.deliveries → s.received[n]? = some f → ∀ j < s.count,
    findField f.body (ascii "id") = findField (s.call j).request (ascii "id") → j = k

/-- Each way to an error of the k-th call is in the run. -/
theorem correlated_of_run {as : List Exchange.Action} {s : Exchange}
    (hinv : Always Exchange.step Inv Exchange.start as)
    (hrun : exec Exchange.step Exchange.start as = some s) : Correlated as s where
  returned k resp h := by
    have hs := hinv.last hrun
    rcases hs.answered k resp h with ⟨n, f, hmem, hf, hbody⟩ | hwoken | rfl | rfl
    · obtain ⟨-, f', hf'⟩ := hs.delivered n k hmem
      obtain rfl : f = f' := Option.some.inj (hf.symm.trans hf'.received)
      refine Or.inl ⟨n, f, hf, ?_, ?_, hmem, hbody⟩
      · rw [f.findField_type, hf'.response]
      · rw [f.findField_id, hf'.mine, hs.requests]
    · have hoccurs := occurs_of_new (fun u a v _ hv => wakes_of_step k (s := u) (t := v) hv) hinv
        (not_wokenOrAfter_start k) hrun (Or.inr ⟨resp, h, hwoken.2⟩)
      exact Or.inr (Or.inl ⟨hwoken.1, Or.inr hoccurs⟩)
    · have hoccurs := occurs_of_new (fun u a v hu => sendFails_of_step k (s := u) (t := v) hu) hinv
        (by rintro (h | ⟨resp, h, -⟩) <;> cases h) hrun (Or.inr ⟨_, h, rfl⟩)
      exact Or.inr (Or.inl ⟨rfl, Or.inl hoccurs⟩)
    · have hoccurs := occurs_of_new (fun u a v hu => timesOut_of_step k (s := u) (t := v) hu) hinv
        (by rintro (h | ⟨resp, h, -⟩) <;> cases h) hrun (Or.inr ⟨_, h, rfl⟩)
      exact Or.inr (Or.inr ⟨rfl, hoccurs⟩)
  once := (hinv.last hrun).once
  own n k f hmem hf j hj hid := by
    have hs := hinv.last hrun
    obtain ⟨hk, f', hf'⟩ := hs.delivered n k hmem
    obtain rfl : f = f' := Option.some.inj (hf.symm.trans hf'.received)
    rw [f.findField_id, hf'.mine, hs.requests] at hid
    exact hs.id_injective hj hk hid.symm

/-- A step of the calls or of the reader: nothing comes from outside. -/
def Exchange.Action.Own : Exchange.Action → Prop
  | .caller .. | .reader | .wake _ => True
  | .call _ | .connect | .receive _ | .disconnect => False

/-- The connection does not end, and no wait times out on a slot that is left to wake, while a
call whose wait timed out has still to take the table. -/
def Unhindered (s : Exchange) : Exchange.Action → Prop
  | .caller k flag =>
    (s.call k).pc = .waiting → (s.call k).done = false → flag = true → k ∉ s.reader.left
  | .receive f => f.body.length > 1000000 → ∀ e ∈ s.pending, (s.call e.2).pc ≠ .gaveUp
  | .disconnect => ∀ e ∈ s.pending, (s.call e.2).pc ≠ .gaveUp
  | _ => True

/-- No slot that is left to wake is held by a call that waits for the table. -/
def Wakeable (s : Exchange) : Prop := ∀ k ∈ s.reader.left, (s.call k).pc ≠ .gaveUp

theorem readerStep_left {s t : Exchange} (h : s.readerStep = some t) : t.reader.left = [] := by
  unfold Exchange.readerStep at h
  split at h
  · obtain ⟨f, -, hstep⟩ := Option.map_eq_some_iff.mp h
    simp only at hstep
    split at hstep
    · subst hstep
      rfl
    · subst hstep
      rfl
  · split_ifs at h
    obtain ⟨f, -, rfl⟩ := Option.map_eq_some_iff.mp h
    rfl
  · cases h
    rfl
  · cases h

/-- Slots are left to wake from before, or the connection ends at this step. -/
theorem left_of_step {s t : Exchange} {a : Exchange.Action} (h : s.step a = some t) {k : Nat}
    (hk : k ∈ t.reader.left) : k ∈ s.reader.left ∨
      (k ∈ s.pending.map Prod.snd ∧
        (a = .disconnect ∨ ∃ f : ServerFrame, a = .receive f ∧ f.body.length > 1000000)) := by
  cases a with
  | call args =>
    cases h
    exact Or.inl hk
  | caller j flag =>
    rw [(callerStep_move h).reader] at hk
    exact Or.inl hk
  | connect =>
    simp only [Exchange.step] at h
    split_ifs at h
    cases h
    exact absurd hk List.not_mem_nil
  | receive f =>
    simp only [Exchange.step] at h
    split_ifs at h
    cases h
    unfold Exchange.receive at hk
    split_ifs at hk with hlong
    · exact Or.inr ⟨hk, Or.inr ⟨f, rfl, hlong⟩⟩
    · exact absurd hk List.not_mem_nil
    · exact absurd hk List.not_mem_nil
  | disconnect =>
    simp only [Exchange.step] at h
    split_ifs at h
    cases h
    exact Or.inr ⟨hk, Or.inl rfl⟩
  | reader =>
    rw [readerStep_left h] at hk
    exact absurd hk List.not_mem_nil
  | wake j =>
    obtain ⟨rest, hreader, -, -, rfl⟩ := wake_cases h
    rw [hreader]
    exact Or.inl (List.mem_of_mem_erase hk)

theorem wakeable_step {s t : Exchange} (hs : Wakeable s) {a : Exchange.Action}
    (ha : Unhindered s a) (h : s.step a = some t) : Wakeable t := by
  intro k hk hgave
  have hbefore : (s.call k).pc = .gaveUp ∨ TimesOut k s a := by
    cases callEffect_of_step h k with
    | begins _ _ hcall =>
      rw [hcall] at hgave
      cases hgave
    | keeps hpc => exact Or.inl (hpc.symm.trans hgave)
    | wakes _ _ hpc => exact Or.inl (hpc.symm.trans hgave)
    | turns flag heq hturn =>
      obtain ⟨hwaiting, hdone, rfl⟩ := hturn.pc_gaveUp hgave
      exact Or.inr ⟨hwaiting, hdone, heq⟩
  rcases left_of_step h hk with hleft | ⟨hpending, hends⟩
  · rcases hbefore with hgave' | ⟨hwaiting, hdone, rfl⟩
    · exact hs k hleft hgave'
    · exact ha hwaiting hdone rfl hleft
  · obtain ⟨e, he, rfl⟩ := List.mem_map.mp hpending
    rcases hends with rfl | ⟨f, rfl, hlong⟩
    · rcases hbefore with hgave' | ⟨-, -, heq⟩
      · exact ha e he hgave'
      · cases heq
    · rcases hbefore with hgave' | ⟨-, -, heq⟩
      · exact ha hlong e he hgave'
      · cases heq

/-- The steps a call takes at most until it has returned. -/
def CallPc.stepsLeft : CallPc → Nat
  | .unborn => 0
  | .toRegister => 4
  | .toSend => 3
  | .waiting => 2
  | .toWithdraw => 1
  | .gaveUp => 1
  | .returned => 0

/-- The steps the reader takes at most until it needs a frame or a connection. -/
def ReadPc.stepsLeft : ReadPc → Nat
  | .stopped => 0
  | .reading => 0
  | .toMatch _ => 2
  | .toFill .. => 1
  | .closing rest => rest.length + 1

/-- The steps the calls and the reader take at most with nothing from outside. -/
def Exchange.stepsLeft (s : Exchange) : Nat :=
  ∑ k ∈ Finset.range s.count, (s.call k).pc.stepsLeft + s.reader.stepsLeft

theorem CallTurn.lower {c : Call} {flag : Bool} {pc : CallPc} {result : Option BridgeResponse}
    (h : CallTurn c flag pc result) : pc.stepsLeft < c.pc.stepsLeft := by
  cases h <;> simp_all [CallPc.stepsLeft]

theorem CallAdvance.lower {s t : Exchange} {k : Nat} {flag : Bool} (hs : Inv s)
    (h : CallAdvance s t k flag) : t.stepsLeft < s.stepsLeft := by
  have hk := h.begun hs
  have hlower := h.turn.lower
  have hsum : ∑ j ∈ Finset.range s.count, (t.call j).pc.stepsLeft <
      ∑ j ∈ Finset.range s.count, (s.call j).pc.stepsLeft := by
    apply Finset.sum_lt_sum
    · intro j _
      by_cases hj : j = k
      · rw [hj]
        exact hlower.le
      · rw [h.others j hj]
    · exact ⟨k, Finset.mem_range.mpr hk, hlower⟩
  rw [Exchange.stepsLeft, Exchange.stepsLeft, h.count, h.reader]
  omega

/-- The reader's own steps leave the calls where they are. -/
theorem pc_of_readerAction {s t : Exchange} {a : Exchange.Action} (h : s.step a = some t)
    (ha : a = .reader ∨ ∃ j, a = .wake j) (k : Nat) : (t.call k).pc = (s.call k).pc := by
  cases callEffect_of_step h k with
  | begins args hcall => rcases ha with rfl | ⟨j, rfl⟩ <;> cases hcall
  | turns flag hcaller => rcases ha with rfl | ⟨j, rfl⟩ <;> cases hcaller
  | keeps hpc => exact hpc
  | wakes _ _ hpc => exact hpc

theorem stepsLeft_lower {s t : Exchange} (hcount : t.count = s.count)
    (hcalls : ∀ k, (t.call k).pc = (s.call k).pc)
    (hreader : t.reader.stepsLeft < s.reader.stepsLeft) : t.stepsLeft < s.stepsLeft := by
  simp only [Exchange.stepsLeft, hcount, hcalls]
  omega

theorem readerStep_lower {s t : Exchange} (h : s.readerStep = some t) :
    t.count = s.count ∧ t.reader.stepsLeft < s.reader.stepsLeft := by
  unfold Exchange.readerStep at h
  split at h
  next n hreader =>
    obtain ⟨f, -, hstep⟩ := Option.map_eq_some_iff.mp h
    simp only at hstep
    rw [hreader]
    split at hstep
    · subst hstep
      exact ⟨rfl, Nat.lt_succ_self 1⟩
    · subst hstep
      exact ⟨rfl, Nat.zero_lt_two⟩
  next n k hreader =>
    rw [hreader]
    split_ifs at h
    obtain ⟨f, -, rfl⟩ := Option.map_eq_some_iff.mp h
    exact ⟨rfl, Nat.zero_lt_one⟩
  next hreader =>
    cases h
    rw [hreader]
    exact ⟨rfl, Nat.zero_lt_one⟩
  next => cases h

theorem own_step {s t : Exchange} {a : Exchange.Action} (hs : Inv s) (ha : a.Own)
    (h : s.step a = some t) : t.count = s.count ∧ t.stepsLeft < s.stepsLeft := by
  cases a with
  | call args => cases ha
  | connect => cases ha
  | receive f => cases ha
  | disconnect => cases ha
  | caller k flag => exact ⟨(callerStep_move h).count, (callerStep_move h).lower hs⟩
  | reader =>
    obtain ⟨hcount, hlower⟩ := readerStep_lower h
    exact ⟨hcount, stepsLeft_lower hcount (pc_of_readerAction h (Or.inl rfl)) hlower⟩
  | wake k =>
    have hcalls := pc_of_readerAction h (Or.inr ⟨k, rfl⟩)
    obtain ⟨rest, hreader, hk, -, rfl⟩ := wake_cases h
    refine ⟨rfl, stepsLeft_lower rfl hcalls ?_⟩
    have hlength := List.length_erase_of_mem hk
    have hpos := List.length_pos_of_mem hk
    rw [hreader]
    simp only [ReadPc.stepsLeft]
    omega

theorem fewCalls_of_own {s : Exchange} {a : Exchange.Action} (ha : a.Own) : FewCalls s a := by
  cases a with
  | call args => cases ha
  | caller | connect | receive | disconnect | reader | wake => trivial

/-- A call that has not returned and is not held up by the reader can take a step. -/
theorem caller_enabled {s : Exchange} {k : Nat} (hborn : (s.call k).pc ≠ .unborn)
    (hopen : (s.call k).pc ≠ .returned) (htable : s.tableHeld = false) :
    ∃ t, s.step (.caller k true) = some t := by
  simp only [Exchange.step, Exchange.callerStep]
  cases hpc : (s.call k).pc with
  | unborn => exact absurd hpc hborn
  | returned => exact absurd hpc hopen
  | waiting =>
    by_cases hdone : (s.call k).done = true
    · simp [hdone]
    · simp [hdone]
  | toRegister | toWithdraw | gaveUp => simp [htable]
  | toSend => exact ⟨_, rfl⟩

theorem caller_progress {s : Exchange} {k : Nat} (hborn : (s.call k).pc ≠ .unborn)
    (hopen : (s.call k).pc ≠ .returned) (htable : s.tableHeld = false) :
    ∃ a t, a.Own ∧ Unhindered s a ∧ s.step a = some t := by
  obtain ⟨t, ht⟩ := caller_enabled hborn hopen htable
  refine ⟨.caller k true, t, trivial, ?_, ht⟩
  intro _ _ _ hleft
  unfold ReadPc.left at hleft
  unfold Exchange.tableHeld at htable
  split at hleft
  next rest hreader =>
    rw [hreader] at htable
    cases htable
  next => cases hleft

/-- While a call has not returned the calls and the reader can go on. -/
theorem progress {s : Exchange} (hs : Inv s) (hwake : Wakeable s) {k : Nat} (hk : k < s.count)
    (hopen : (s.call k).pc ≠ .returned) : ∃ a t, a.Own ∧ Unhindered s a ∧ s.step a = some t := by
  cases hreader : s.reader with
  | stopped => exact caller_progress (hs.born k hk) hopen (by simp [Exchange.tableHeld, hreader])
  | reading => exact caller_progress (hs.born k hk) hopen (by simp [Exchange.tableHeld, hreader])
  | toMatch n =>
    obtain ⟨-, f, hf, -⟩ := hs.matching n hreader
    refine ⟨.reader, ?_⟩
    simp only [Exchange.step, Exchange.readerStep, hreader, hf, Option.map_some]
    exact ⟨_, trivial, trivial, rfl⟩
  | toFill n j =>
    obtain ⟨-, hj, f, hf⟩ := hs.filling n j hreader
    by_cases hgave : (s.call j).pc = .gaveUp
    · exact caller_progress (hs.born j hj) (by rw [hgave]; exact CallPc.noConfusion)
        (by simp [Exchange.tableHeld, hreader])
    · refine ⟨.reader, ?_⟩
      simp only [Exchange.step, Exchange.readerStep, hreader, if_neg hgave, hf.received,
        Option.map_some]
      exact ⟨_, trivial, trivial, rfl⟩
  | closing rest =>
    cases rest with
    | nil =>
      refine ⟨.reader, ?_⟩
      simp only [Exchange.step, Exchange.readerStep, hreader]
      exact ⟨_, trivial, trivial, rfl⟩
    | cons j rest =>
      have hj : (s.call j).pc ≠ .gaveUp := hwake j (by rw [hreader]; exact List.mem_cons_self)
      refine ⟨.wake j, ?_⟩
      simp only [Exchange.step, hreader, List.mem_cons_self, true_and, if_pos hj]
      exact ⟨_, trivial, trivial, rfl⟩

/-- Some way to go on ends with the k-th call returned. -/
def CanReturn (s : Exchange) (k : Nat) : Prop :=
  ∃ as t resp, exec Exchange.step s as = some t ∧ (t.call k).result = some resp

/-- Calls return: with nothing from outside the calls and the reader stop after so many steps, and
where they stop every call has returned. -/
structure Completing (s : Exchange) : Prop where
  canReturn : ∀ k < s.count, CanReturn s k
  finite : ∀ as t, (∀ a ∈ as, a.Own) → exec Exchange.step s as = some t →
    as.length ≤ s.stepsLeft
  settled : ∀ as t, (∀ a ∈ as, a.Own) → Along Exchange.step Unhindered s as →
    exec Exchange.step s as = some t →
    (∀ a, a.Own → Unhindered t a → t.step a = none) → ∀ k < s.count,
      ∃ resp, (t.call k).result = some resp

theorem canReturn {s : Exchange} (hs : Inv s) (hwake : Wakeable s) {k : Nat} (hk : k < s.count) :
    CanReturn s k := by
  induction hn : s.stepsLeft using Nat.strong_induction_on generalizing s with
  | _ n ih =>
    by_cases hpc : (s.call k).pc = .returned
    · obtain ⟨resp, hresp⟩ := hs.ended k hpc
      exact ⟨[], s, resp, rfl, hresp⟩
    · obtain ⟨a, u, hown, hok, hu⟩ := progress hs hwake hk hpc
      obtain ⟨hcount, hlower⟩ := own_step hs hown hu
      obtain ⟨as, t, resp, ht, hresp⟩ := ih u.stepsLeft (hn ▸ hlower)
        (inv_step hs (fewCalls_of_own hown) hu) (wakeable_step hwake hok hu) (hcount ▸ hk) rfl
      refine ⟨a :: as, t, resp, ?_, hresp⟩
      rw [exec_cons, hu]
      exact ht

theorem completing {s : Exchange} (hs : Inv s) (hwake : Wakeable s) : Completing s where
  canReturn _ hk := canReturn hs hwake hk
  finite as t hown ht := by
    have hstep : ∀ u a v, Inv u → a.Own → Exchange.step u a = some v →
        Inv v ∧ v.stepsLeft < u.stepsLeft :=
      fun u a v hu ha hv => ⟨inv_step hu (fewCalls_of_own ha) hv, (own_step hu ha hv).2⟩
    exact length_le_of_lowered hstep hs hown ht
  settled as t hown halong ht hstops k hk := by
    have hkept : Inv t ∧ Wakeable t ∧ t.count = s.count := by
      have hboth := along_and Exchange.step halong (along_of_forall Exchange.step s hown)
      refine (always_of_along (P := fun u => Inv u ∧ Wakeable u ∧ u.count = s.count) ?_
        ⟨hs, hwake, rfl⟩ hboth).last ht
      rintro u a v ⟨hu, hwakeu, hcount⟩ ⟨hok, ha⟩ hv
      exact ⟨inv_step hu (fewCalls_of_own ha) hv, wakeable_step hwakeu hok hv,
        (own_step hu ha hv).1.trans hcount⟩
    by_cases hpc : (t.call k).pc = .returned
    · exact hkept.1.ended k hpc
    · obtain ⟨a, u, ha, hok, hu⟩ := progress hkept.1 hkept.2.1 (hkept.2.2 ▸ hk) hpc
      rw [hstops a ha hok] at hu
      cases hu

/-- In every interleaving of fewer than 2^64 calls with the reader the responses find their
calls, and while nothing hinders them the calls return. -/
theorem exchange_correlated {as : List Exchange.Action} {s : Exchange}
    (has : Along Exchange.step FewCalls Exchange.start as)
    (hs : exec Exchange.step Exchange.start as = some s) :
    Correlated as s ∧ (Along Exchange.step Unhindered Exchange.start as → Completing s) := by
  have hstep : ∀ s a t, Inv s → FewCalls s a → Exchange.step s a = some t → Inv t :=
    fun s a t hs ha ht => inv_step hs ha ht
  have hinv := always_of_along hstep inv_start has
  refine ⟨correlated_of_run hinv hs, fun halong => completing (hinv.last hs) ?_⟩
  have hwakeable : ∀ s a t, Wakeable s → Unhindered s a → Exchange.step s a = some t → Wakeable t :=
    fun s a t hs ha ht => wakeable_step hs ha ht
  have hstart : Wakeable Exchange.start := fun k hk => absurd hk List.not_mem_nil
  exact (always_of_along hwakeable hstart halong).last hs

instance (s : Exchange) : (a : Exchange.Action) → Decidable (FewCalls s a)
  | .call _ => inferInstanceAs (Decidable (s.count + 1 < 2 ^ 64))
  | .caller .. => isTrue trivial
  | .connect => isTrue trivial
  | .receive _ => isTrue trivial
  | .disconnect => isTrue trivial
  | .reader => isTrue trivial
  | .wake _ => isTrue trivial

instance (s : Exchange) : (a : Exchange.Action) → Decidable (Unhindered s a)
  | .call _ => isTrue trivial
  | .caller k flag => inferInstanceAs (Decidable ((s.call k).pc = .waiting →
      (s.call k).done = false → flag = true → k ∉ s.reader.left))
  | .connect => isTrue trivial
  | .receive f => inferInstanceAs (Decidable (f.body.length > 1000000 →
      ∀ e ∈ s.pending, (s.call e.2).pc ≠ .gaveUp))
  | .disconnect => inferInstanceAs (Decidable (∀ e ∈ s.pending, (s.call e.2).pc ≠ .gaveUp))
  | .reader => isTrue trivial
  | .wake _ => isTrue trivial

def emptyArgs : RequestArgs := ⟨[], [], [], [], []⟩

/-- A response with the id of the first or of the second request. -/
def responseTo (id : PlainText) : ServerFrame :=
  ⟨⟨ascii "response", by decide⟩, id, ascii ",\"result\":0,\"payload\":\x7b\x7d\x7d"⟩

/-- The first of two calls times out before its response comes, the second one is answered twice
and a third one is cut off. -/
def lateResponse : List Exchange.Action :=
  [.connect, .call emptyArgs, .call emptyArgs, .caller 0 true, .caller 1 true, .caller 0 true,
    .caller 1 true, .caller 0 true, .caller 0 true, .receive (responseTo ⟨ascii "REQ_1", by decide⟩),
    .reader, .receive (responseTo ⟨ascii "REQ_2", by decide⟩), .reader, .reader,
    .receive (responseTo ⟨ascii "REQ_2", by decide⟩), .reader, .caller 1 false, .call emptyArgs,
    .caller 2 true, .caller 2 true, .disconnect, .wake 2, .reader, .caller 2 false]

theorem lateResponse_correlated : ∃ s, exec Exchange.step Exchange.start lateResponse = some s ∧
    Correlated lateResponse s ∧ Completing s := by
  have hruns : (exec Exchange.step Exchange.start lateResponse).isSome = true := by decide +kernel
  obtain ⟨s, hs⟩ := Option.isSome_iff_exists.mp hruns
  obtain ⟨hcorrelated, hcompleting⟩ := exchange_correlated (by decide +kernel) hs
  exact ⟨s, hs, hcorrelated, hcompleting (by decide +kernel)⟩

/-- A call that waits for the table with the reader at its slot. -/
structure HeldUp (s : Exchange) : Prop where
  begun : 0 < s.count
  reader : s.reader = .closing [0]
  waits : (s.call 0).pc = .gaveUp
  unreturned : (s.call 0).result = none

theorem heldUp_step {s t : Exchange} (hs : HeldUp s) {a : Exchange.Action}
    (h : s.step a = some t) : HeldUp t := by
  obtain ⟨hbegun, hreader, hwaits, hopen⟩ := hs
  have htable : s.tableHeld = true := by simp [Exchange.tableHeld, hreader]
  cases a with
  | call args =>
    cases h
    have hother : (s.beginCall args).call 0 = s.call 0 := Function.update_of_ne hbegun.ne ..
    exact ⟨Nat.succ_pos _, hreader, by rw [hother, hwaits], by rw [hother, hopen]⟩
  | caller k flag =>
    have hadvance := callerStep_move h
    have hk : (0 : Nat) ≠ k := by
      rintro rfl
      simp [Exchange.step, Exchange.callerStep, hwaits, htable] at h
    have hother := hadvance.others 0 hk
    exact ⟨hadvance.count ▸ hbegun, hadvance.reader.trans hreader, by rw [hother, hwaits],
      by rw [hother, hopen]⟩
  | connect => simp [Exchange.step, hreader] at h
  | receive f => simp [Exchange.step, hreader] at h
  | disconnect => simp [Exchange.step, hreader] at h
  | reader => simp [Exchange.step, Exchange.readerStep, hreader] at h
  | wake k =>
    obtain ⟨rest, hrest, hk, hpc, -⟩ := wake_cases h
    rw [hreader] at hrest
    cases hrest
    obtain rfl : k = 0 := by simpa using hk
    exact absurd hwaits hpc

/-- The wait of a call times out, and before the call has the table the connection ends. -/
def hangingTimeout : List Exchange.Action :=
  [.connect, .call emptyArgs, .caller 0 true, .caller 0 true, .caller 0 true, .disconnect]

theorem timeout_never_returns : ¬∀ as s, Along Exchange.step FewCalls Exchange.start as →
    exec Exchange.step Exchange.start as = some s → ∀ k < s.count, CanReturn s k := by
  intro hall
  have hruns : (exec Exchange.step Exchange.start hangingTimeout).isSome = true := by
    decide +kernel
  obtain ⟨s, hs⟩ := Option.isSome_iff_exists.mp hruns
  have hheld : HeldUp s := by
    cases hs
    exact ⟨by decide, rfl, rfl, rfl⟩
  obtain ⟨as, t, resp, ht, hresp⟩ := hall hangingTimeout s (by decide +kernel) hs 0 hheld.begun
  have hstep : ∀ u a v, HeldUp u → free u a → Exchange.step u a = some v → HeldUp v :=
    fun u a v hu _ hv => heldUp_step hu hv
  have hlast := Reaches.invariant hstep hheld (Reaches.of_exec as ht)
  rw [hlast.unreturned] at hresp
  cases hresp

end AtmXfs.Bridge
