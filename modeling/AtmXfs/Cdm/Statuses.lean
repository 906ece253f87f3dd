import AtmXfs.Cdm.Bounds

namespace AtmXfs.Cdm

open Js

/-- The cached status is the one the count stands for. -/
def Labelled (u : CashUnit) : Prop := u.status = statusOfCount u.count u.minimum

/-- Every cassette but the reject unit is jammed or has the status of its count. -/
def Follows (s : CdmDeviceService) : Prop :=
  ∀ u ∈ s.cashUnits.values, u.unitId ≠ "REJECT" → u.status = .jammed ∨ Labelled u

def StatusesFollow : Dispenser → Prop
  | .whole s => Follows s
  | .uneven _ _ _ => False

/-- A refill, where the call is one, is to an integer. -/
def IntegerCount : CdmCall → Prop
  | .replenish _ newCount => ∃ n : Int, newCount = .ofInt n
  | _ => True

/-- The deduction never writes OK, and need not: what was low or empty does not become more. -/
theorem Labelled.draw {u : CashUnit} (h : Labelled u) (hmin : 0 ≤ u.minimum) {n : Int}
    (hn : 0 ≤ n) : Labelled (drawNotes u n) := by
  unfold Labelled at h ⊢
  by_cases hzero : u.count - n = 0
  · simp [drawNotes, statusOfCount, hzero]
  · by_cases hlow : u.count - n ≤ u.minimum
    · simp [drawNotes, statusOfCount, hzero, hlow]
    · have hheld : u.count ≠ 0 := by omega
      have hmany : ¬ u.count ≤ u.minimum := by omega
      rw [statusOfCount, if_neg hheld, if_neg hmany] at h
      simp [drawNotes, statusOfCount, hzero, hlow, h]

theorem Labelled.drawAll {u : CashUnit} (h : Labelled u) (hmin : 0 ≤ u.minimum) {ns : List Int}
    (hns : ∀ n ∈ ns, 0 ≤ n) : Labelled (ns.foldl drawNotes u) := by
  induction ns generalizing u with
  | nil => exact h
  | cons n ns ih =>
    have hfirst : Labelled (drawNotes u n) := h.draw hmin (hns n List.mem_cons_self)
    have hrest : ∀ m ∈ ns, 0 ≤ m := fun m hm => hns m (List.mem_cons_of_mem n hm)
    exact ih hfirst hmin hrest

theorem Serviced.labelled {u u' : CashUnit} (h : Serviced u u') :
    u'.unitId ≠ "REJECT" → u'.status = .jammed ∨ Labelled u' := by
  intro hid
  cases h with
  | replenished n _ _ => exact .inr rfl
  | jammed => exact .inl rfl
  | cleared => exact .inr rfl
  | rejected n hreject => exact absurd hreject hid

theorem FromDefault.minimum_nonneg {s : CdmDeviceService} (h : FromDefault s) {u : CashUnit}
    (hu : u ∈ s.cashUnits.values) : 0 ≤ u.minimum := by
  have hshape : shape u ∈ initializeCassettes.values.map shape := by
    rw [← h.shapes]
    exact List.mem_map_of_mem hu
  obtain ⟨v, hv, hsame⟩ := List.mem_map.mp hshape
  have hminimum : v.minimum = u.minimum := congrArg (fun p => p.2.2.2.2) hsame
  have hdefault : ∀ v ∈ initializeCassettes.values, 0 ≤ v.minimum := by decide
  rw [← hminimum]
  exact hdefault v hv

theorem Follows.of_units {s s' : CdmDeviceService} (h : Follows s)
    (hunits : s'.cashUnits = s.cashUnits) : Follows s' := by
  unfold Follows
  rw [hunits]
  exact h

/-- Notes leave only cassettes that the lookup finds, and it passes the jammed ones by. -/
theorem follows_dispense {s s' : CdmDeviceService} (hdefault : FromDefault s) (h : Follows s)
    {payload : CdmDispensePayload} {r : CdmDispenseResult}
    (hd : dispense s payload = (.ok r, s')) : Follows s' := by
  obtain ⟨hplan, hvalues⟩ := dispense_values hd
  obtain ⟨-, -, hmix, -⟩ := planDispense_spec hplan
  intro v hv hid
  rw [hvalues] at hv
  obtain ⟨u, hu, rfl⟩ := List.mem_map.mp hv
  have hns : ∀ n ∈ drawnFrom s.cashUnits (objectEntries r.mix) u.unitId, 0 ≤ n := by
    intro n hn
    obtain ⟨e, he, rfl⟩ := List.mem_map.mp hn
    have hentry : e ∈ r.mix := (objectEntries_perm r.mix).mem_iff.mp (List.mem_of_mem_filter he)
    exact chooseMix_nonneg hmix e hentry
  rw [unitId_of_shape (foldl_drawNotes_shape u _)] at hid
  rcases h u hu hid with hjam | hlabel
  · have hhidden : findSpendableUnitByDenom s.cashUnits (.ofInt u.denomination) ≠ some u :=
      fun hfound => (find_spec hfound).2.2.2 hjam
    rw [drawnFrom_hidden _ hu hhidden]
    exact .inl hjam
  · exact .inr (hlabel.drawAll (hdefault.minimum_nonneg hu) hns)

theorem follows_step {s s' : CdmDeviceService} (hdefault : FromDefault s) (h : Follows s)
    (op : CdmOp) (hstep : step s op = some s') : Follows s' := by
  rcases step_units hstep with hsame | ⟨payload, r, -, hd⟩ | ⟨u, hu, u', hserv, hset⟩
  · exact h.of_units hsame
  · cases r with
    | ok r => exact follows_dispense hdefault h hd
    | error e =>
      rw [dispense_failed hd]
      exact h
  · intro v hv
    rw [hset] at hv
    rcases CashUnits.mem_set hu (unitId_of_shape hserv.shape) hv with rfl | ⟨hold, -⟩
    · exact hserv.labelled
    · exact h v hold

theorem follows_request {s : CdmDeviceService} (hdefault : FromDefault s) (h : Follows s)
    (commandCode : String) (payload : Option Json) :
    Follows (executeRequest s commandCode payload).2 := by
  unfold executeRequest
  split
  · next c _ => exact follows_step hdefault h (.command c) rfl
  · exact h.of_units (consumed_of_throw s .typeError).cashUnits

theorem statusesFollow_step {d d' : Dispenser} {call : CdmCall} (hdefault : d.fromDefault)
    (h : StatusesFollow d) (hint : IntegerCount call) (hstep : callStep d call = some d') :
    StatusesFollow d' := by
  cases d with
  | uneven s unitId count => cases hstep
  | whole s =>
    rcases callStep_cases hstep with ⟨commandCode, payload, -, rfl⟩ |
      ⟨unitId, newCount, rfl, rfl⟩ | ⟨-, -, op, s', -, -, hs', rfl⟩
    · exact follows_request hdefault h commandCode payload
    · obtain ⟨n, rfl⟩ := hint
      rw [replenishWith_ofInt]
      exact follows_step hdefault h (.replenish unitId n) rfl
    · exact follows_step hdefault h op hs'

theorem follows_new : Follows (.new initializeCassettes) := by
  have hall : ∀ u ∈ initializeCassettes.values, u.unitId ≠ "REJECT" →
      u.status = .jammed ∨ u.status = statusOfCount u.count u.minimum := by decide
  exact hall

/-- From the default table, in every state of a run whose refills are to integers, the status of
a cassette that is not jammed is the one its count stands for. -/
theorem statuses_follow_counts {calls : List CdmCall} (h : ∀ call ∈ calls, IntegerCount call) :
    Runs.Always callStep StatusesFollow (.whole (.new initializeCassettes)) calls := by
  have hboth : Runs.Always callStep (fun d => d.fromDefault ∧ StatusesFollow d)
      (.whole (.new initializeCassettes)) calls := by
    apply Runs.always_of_along _ ⟨fromDefault_new, follows_new⟩ (Runs.along_of_forall _ _ h)
    intro d call d' hd hint hstep
    exact ⟨fromDefault_step hd.1 hstep, statusesFollow_step hd.1 hd.2 hint hstep⟩
  exact hboth.mono fun _ hd => hd.2

/-- A cassette is emptied, jammed, refilled to its minimum and emptied again. -/
theorem statuses_follow_counts_emptied :
    Runs.Always callStep StatusesFollow (.whole (.new initializeCassettes))
      [customRequest 10000000 [("20000", 500)], .jam "CASS3", .replenish "CASS3" (.ofInt 50),
       customRequest 1000000 [("20000", 50)], .clearJam "CASS3"] := by
  apply statuses_follow_counts
  intro call hcall
  simp only [List.mem_cons, List.not_mem_nil, or_false] at hcall
  rcases hcall with rfl | rfl | rfl | rfl | rfl
  · trivial
  · trivial
  · exact ⟨50, rfl⟩
  · trivial
  · trivial

end AtmXfs.Cdm
