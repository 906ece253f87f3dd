import AtmXfs.Cdm.Request
import AtmXfs.Dll.Payload

namespace AtmXfs.Dll

open Js JsonText Cdm
open Framing (Bytes)

/-- DISPENSE with a payload as it comes over the wire; a frame that is no JSON is dropped. -/
def executeDispense (s : CdmDeviceService) (payload : Bytes) :
    Option (Except CdmError CdmResult) × CdmDeviceService :=
  match parse payload with
  | some json =>
    let r := executeRequest s "WFS_CMD_CDM_DISPENSE" (some json)
    (some r.1, r.2)
  | none => (none, s)

/-- The counts of a request, `lpusNoteNumber` with its `usCount` entries. -/
def noteCounts (req : Dispense) : List UInt16 := req.denomination.lpusNoteNumber.getD []

/-- The notes that the request takes from the cassette at a place of the table. -/
def notesFrom (req : Dispense) (i : Nat) : Int := (((noteCounts req)[i]?).map (·.toNat)).getD 0

/-- No cassette is to give more than it holds, and one that there is not gives nothing. -/
def WithinTable (req : Dispense) (units : List CashUnit) : Prop :=
  ∀ i < (noteCounts req).length, notesFrom req i ≤ ((units[i]?).map CashUnit.count).getD 0

def tableValue (req : Dispense) (units : List CashUnit) : Nat :=
  (List.zipWith (fun (n : UInt16) u => n.toNat * u.denomination) (noteCounts req) units).sum

/-- Every cassette of the table gave the notes asked of it. -/
def DispensesExactly (req : Dispense) (before after : List CashUnit) : Prop :=
  ∀ i u, before[i]? = some u → ∃ v, after[i]? = some v ∧ v.unitId = u.unitId ∧
    v.count = u.count - notesFrom req i

/-- The text of a slot's name. -/
theorem toList_slot (n : Nat) :
    (stringOf (utf16 "slot" ++ decimal n)).toList =
      's' :: 'l' :: 'o' :: 't' :: (decimal n).map fun u => Char.ofNat u.toNat := by
  rw [stringOf, String.toList_ofList, List.map_append]
  rfl

theorem isSpace_digit {u : UInt16} (hu : isDigitUnit u = true) :
    Js.isSpace (Char.ofNat u.toNat) = false := by
  obtain ⟨hlow, hhigh⟩ := isDigitUnit_toNat hu
  interval_cases u.toNat <;> decide

theorem number_slot (n : Nat) : number (stringOf (utf16 "slot" ++ decimal n)) = .nan := by
  have hspace : ∀ c ∈ (stringOf (utf16 "slot" ++ decimal n)).toList, Js.isSpace c = false := by
    rw [toList_slot]
    intro c hc
    simp only [List.mem_cons, List.mem_map] at hc
    rcases hc with rfl | rfl | rfl | rfl | ⟨u, hu, rfl⟩
    · decide
    · decide
    · decide
    · decide
    · exact isSpace_digit (isDigitUnit_decimal n u hu)
  have htrim : Js.trim (stringOf (utf16 "slot" ++ decimal n)).toList =
      (stringOf (utf16 "slot" ++ decimal n)).toList := by
    have hstart : ∀ cs : List Char, (∀ c ∈ cs, Js.isSpace c = false) →
        cs.dropWhile Js.isSpace = cs := by
      intro cs hcs
      cases cs with
      | nil => rfl
      | cons c cs => rw [List.dropWhile_cons, hcs c (List.mem_cons_self ..)]; rfl
    rw [Js.trim, hstart _ hspace, hstart _ fun c hc => hspace c (List.mem_reverse.mp hc),
      List.reverse_reverse]
  rw [number, htrim, toList_slot]
  rfl

/-- A name that is no number is no array index either. -/
theorem index_slot (n : Nat) :
    (DenomStr.text (stringOf (utf16 "slot" ++ decimal n))).index? = none := by
  have hletter : (stringOf (utf16 "slot" ++ decimal n)).toList.all (Js.isDigit 10) = false := by
    rw [toList_slot]
    rfl
  rw [DenomStr.index?, arrayIndex?]
  simp [hletter]

/-- A mix that names a slot is refused at its first entry. -/
theorem validateCustomMix_slots (amount : Int) (count : UInt16) (counts : List UInt16) :
    ∃ name, validateCustomMix amount
      (((count :: counts).mapIdx slotMember).map fun m => (stringOf m.1, asNumber (some m.2))) =
        .error (.invalidDenom name) := by
  have hslots : ∀ e ∈ (((count :: counts).mapIdx slotMember).map fun m =>
      (stringOf m.1, asNumber (some m.2))), ∃ i, e.1 = stringOf (utf16 "slot" ++ decimal (i + 1)) := by
    intro e he
    obtain ⟨m, hm, rfl⟩ := List.mem_map.mp he
    obtain ⟨i, hi, rfl⟩ := List.mem_mapIdx.mp hm
    exact ⟨i, rfl⟩
  generalize hmix : (((count :: counts).mapIdx slotMember).map fun m =>
    (stringOf m.1, asNumber (some m.2))) = mix at hslots ⊢
  have hentries : objectEntries (mix.map fun e => (DenomStr.text e.1, e.2)) =
      mix.map fun e => (DenomStr.text e.1, e.2) := by
    have hindex : ∀ e ∈ mix.map (fun e => (DenomStr.text e.1, e.2)), e.1.index?.isSome = false := by
      intro e he
      obtain ⟨e, hmem, rfl⟩ := List.mem_map.mp he
      obtain ⟨i, hi⟩ := hslots e hmem
      rw [hi, index_slot]
      rfl
    rw [objectEntries, List.filter_eq_nil_iff.mpr fun e he => by simp [hindex e he],
      List.filter_eq_self.mpr fun e he => by simp [hindex e he]]
    rfl
  cases mix with
  | nil => exact absurd (congrArg List.length hmix) (by simp)
  | cons e rest =>
    obtain ⟨i, hi⟩ := hslots e (List.mem_cons_self ..)
    refine ⟨e.1, ?_⟩
    rw [validateCustomMix, hentries, List.map_cons, customMixLoop]
    simp only [DenomStr.toNumber, hi, number_slot]
    rfl

theorem get_amount (req : Dispense) (currency : Text) :
    (dispenseObject req currency).get (utf16 "amount") =
      some (.num (.ofInt req.denomination.ulAmount.toNat)) := rfl

theorem get_mixType (req : Dispense) (currency : Text) :
    (dispenseObject req currency).get (utf16 "mixType") =
      some (.str (utf16 (mixName req.usMixNumber))) := rfl

theorem get_customMix (req : Dispense) (currency : Text) :
    (dispenseObject req currency).get (utf16 "customMix") =
      (customCounts req).map fun counts => .obj (counts.mapIdx slotMember) := by
  cases h : customCounts req with
  | none =>
    rw [dispenseObject, h]
    rfl
  | some counts =>
    rw [dispenseObject, h]
    rfl

theorem noteCounts_of_none {req : Dispense} (hmix : req.usMixNumber = cdmCustom)
    (h : customCounts req = none) : noteCounts req = [] := by
  cases hcounts : req.denomination.lpusNoteNumber with
  | none => rw [noteCounts, hcounts]; rfl
  | some counts =>
    have hlength := req.denomination.counted counts hcounts
    by_cases hpos : 0 < req.denomination.usCount
    · rw [customCounts, if_pos ⟨hmix, hpos⟩, hcounts] at h
      cases h
    · have hzero : req.denomination.usCount.toNat = 0 := by
        rw [UInt16.lt_iff_toNat_lt] at hpos
        exact Nat.eq_zero_of_not_pos hpos
      rw [noteCounts, hcounts]
      exact List.eq_nil_of_length_eq_zero (hlength.trans hzero)

theorem customCounts_ne_nil {req : Dispense} {counts : List UInt16}
    (h : customCounts req = some counts) : counts ≠ [] := by
  unfold customCounts at h
  split_ifs at h with hcustom
  rintro rfl
  have hlength := req.denomination.counted [] h
  have hpos := UInt16.lt_iff_toNat_lt.mp hcustom.2
  rw [← hlength] at hpos
  exact absurd hpos (by decide)

/-- What the device reads of a custom request. -/
structure ReadsCustom (req : Dispense) (p : CdmDispensePayload) : Prop where
  amount : p.amount = .ofInt req.denomination.ulAmount.toNat
  mixType : p.mixType = .custom
  customMix : p.customMix = (customCounts req).map fun counts =>
    (counts.mapIdx slotMember).map fun m => (stringOf m.1, asNumber (some m.2))

theorem commandOf_custom {req : Dispense} (hmix : req.usMixNumber = cdmCustom) (currency : Text) :
    ∃ p, commandOf "WFS_CMD_CDM_DISPENSE" (some (dispenseObject req currency)) =
      some (.dispense p) ∧ ReadsCustom req p := by
  have hdispense : ∀ payload, commandOf "WFS_CMD_CDM_DISPENSE" payload =
      (dispensePayload payload).map .dispense := fun _ => rfl
  have hobject : ∃ members, dispenseObject req currency = .obj members := ⟨_, rfl⟩
  obtain ⟨members, hmembers⟩ := hobject
  refine ⟨_, by rw [hdispense, hmembers]; rfl, ?_, ?_, ?_⟩
  · rw [← hmembers, get_amount]
    rfl
  · rw [← hmembers, get_mixType, hmix]
    rfl
  · simp only
    rw [← hmembers, get_customMix]
    cases customCounts req with
    | none => rfl
    | some counts => rfl

/-- The device refuses every custom request of the DLL before it touches a cassette. -/
theorem planDispense_custom (s : CdmDeviceService) {req : Dispense} {p : CdmDispensePayload}
    (hmix : req.usMixNumber = cdmCustom)
    (htotal : tableValue req s.cashUnits.values = req.denomination.ulAmount.toNat)
    (hp : ReadsCustom req p) : ∃ e, planDispense s p = .error e := by
  by_cases hzero : req.denomination.ulAmount.toNat = 0
  · refine ⟨.invalidAmount (.ofInt 0), ?_⟩
    have hcheck : checkAmount p.amount = .error (.invalidAmount (.ofInt 0)) := by
      rw [hp.amount, hzero]
      rfl
    rw [planDispense, hcheck]
  · have hcheck : checkAmount p.amount = .ok (req.denomination.ulAmount.toNat : Int) := by
      rw [hp.amount, checkAmount, Number.toInt?_ofInt]
      simp only
      rw [if_neg (by omega)]
    cases hcustom : customCounts req with
    | none =>
      rw [tableValue, noteCounts_of_none hmix hcustom] at htotal
      exact absurd htotal.symm hzero
    | some counts =>
      obtain ⟨count, rest, rfl⟩ := List.exists_cons_of_ne_nil (customCounts_ne_nil hcustom)
      obtain ⟨name, hname⟩ := validateCustomMix_slots
        (req.denomination.ulAmount.toNat : Int) count rest
      have hchoose : chooseMix s p (req.denomination.ulAmount.toNat : Int) =
          .error (.invalidDenom name) := by
        have hmixText := hp.customMix
        rw [hcustom, Option.map_some] at hmixText
        rw [chooseMix, hp.mixType, hmixText]
        exact hname
      exact ⟨.invalidDenom name, by rw [planDispense, hcheck]; simp only [hchoose]⟩

theorem executeCommand_refused {s : CdmDeviceService} {p : CdmDispensePayload} {e : CdmError}
    (he : planDispense s p = .error e) :
    (executeCommand s (.dispense p)).2.cashUnits = s.cashUnits := by
  have hplan : (perform s (.dispense p)).2 = s := by simp only [perform, dispense, he]
  show (checkInjectedError (perform · (.dispense p)) s).2.cashUnits = s.cashUnits
  cases hinjected : s.injectedError with
  | some code => rw [checkInjectedError_some hinjected]
  | none => rw [checkInjectedError_none hinjected, hplan]

theorem executeDispense_custom (s : CdmDeviceService) {req : Dispense}
    (hmix : req.usMixNumber = cdmCustom)
    (htotal : tableValue req s.cashUnits.values = req.denomination.ulAmount.toNat) :
    (executeDispense s (marshalCdmDispense (some req))).2.cashUnits = s.cashUnits := by
  rw [executeDispense, parse_marshalCdmDispense]
  cases writerEscape.readBack req.denomination.cCurrencyID with
  | none => rfl
  | some currency =>
    obtain ⟨p, hcommand, hp⟩ := commandOf_custom hmix currency
    obtain ⟨e, he⟩ := planDispense_custom s hmix htotal hp
    have hrun : executeRequest s "WFS_CMD_CDM_DISPENSE" (some (dispenseObject req currency)) =
        executeCommand s (.dispense p) := by rw [executeRequest, hcommand]
    show (executeRequest s "WFS_CMD_CDM_DISPENSE"
      (some (dispenseObject req currency))).2.cashUnits = s.cashUnits
    rw [hrun]
    exact executeCommand_refused he

/-- A custom request is paid out as it says exactly if it asks for no notes. -/
theorem customDispense_exact (s : CdmDeviceService) (req : Dispense)
    (hmix : req.usMixNumber = cdmCustom) (hwithin : WithinTable req s.cashUnits.values)
    (htotal : tableValue req s.cashUnits.values = req.denomination.ulAmount.toNat) :
    DispensesExactly req s.cashUnits.values
        (executeDispense s (marshalCdmDispense (some req))).2.cashUnits.values ↔
      ∀ n ∈ noteCounts req, n = 0 := by
  rw [executeDispense_custom s hmix htotal]
  constructor
  · intro hexact n hn
    obtain ⟨i, hi, rfl⟩ := List.mem_iff_getElem.mp hn
    have hnotes : notesFrom req i = ((noteCounts req)[i].toNat : Int) := by
      rw [notesFrom, List.getElem?_eq_getElem hi]
      rfl
    have hzero : notesFrom req i = 0 := by
      cases hunit : s.cashUnits.values[i]? with
      | none =>
        have hle := hwithin i hi
        rw [hunit, hnotes] at hle
        rw [hnotes]
        simp only [Option.map_none, Option.getD_none] at hle
        omega
      | some u =>
        obtain ⟨v, hv, -, hcount⟩ := hexact i u hunit
        rw [hunit, Option.some.injEq] at hv
        subst hv
        omega
    rw [hnotes] at hzero
    exact UInt16.toNat_inj.mp (by exact_mod_cast hzero)
  · intro hnone i u hu
    refine ⟨u, hu, rfl, ?_⟩
    have hzero : notesFrom req i = 0 := by
      rw [notesFrom]
      cases hn : (noteCounts req)[i]? with
      | none => rfl
      | some n =>
        rw [hnone n (List.mem_of_getElem? hn)]
        rfl
    rw [hzero, Int.sub_zero]

/-- A request for so many notes of the first cassette, which holds notes of 100 000. -/
def firstCassette (n : UInt16) (amount : UInt32) : Dispense where
  usMixNumber := cdmCustom
  bPresent := 0
  denomination :=
    { cCurrencyID := ascii "IDR"
      three := rfl
      ulAmount := amount
      usCount := 1
      lpusNoteNumber := some [n]
      counted := by
        intro counts hcounts
        cases hcounts
        rfl }

theorem firstCassette_within {n : UInt16} {amount : UInt32} (hn : n.toNat ≤ 500) :
    WithinTable (firstCassette n amount) initializeCassettes.values := by
  intro i hi
  have hfirst : i = 0 := Nat.lt_one_iff.mp hi
  subst hfirst
  have hnotes : notesFrom (firstCassette n amount) 0 = (n.toNat : Int) := rfl
  have hcount : ((initializeCassettes.values[0]?).map CashUnit.count).getD 0 = 500 := rfl
  rw [hnotes, hcount]
  exact_mod_cast hn

theorem nothing_dispensed :
    DispensesExactly (firstCassette 0 0) initializeCassettes.values
      (executeDispense (.new initializeCassettes)
        (marshalCdmDispense (some (firstCassette 0 0)))).2.cashUnits.values := by
  have hiff := customDispense_exact (.new initializeCassettes) (firstCassette 0 0) rfl
    (firstCassette_within (by decide)) rfl
  apply hiff.mpr
  intro n hn
  exact List.mem_singleton.mp hn

/-- One note is asked of a cassette that holds 500, and the device gives none. -/
theorem oneNote_kept :
    WithinTable (firstCassette 1 100000) initializeCassettes.values ∧
      tableValue (firstCassette 1 100000) initializeCassettes.values = 100000 ∧
      ¬DispensesExactly (firstCassette 1 100000) initializeCassettes.values
        (executeDispense (.new initializeCassettes)
          (marshalCdmDispense (some (firstCassette 1 100000)))).2.cashUnits.values := by
  have htotal : tableValue (firstCassette 1 100000) initializeCassettes.values = 100000 := rfl
  refine ⟨firstCassette_within (by decide), htotal, ?_⟩
  have hkept : (executeDispense (.new initializeCassettes)
      (marshalCdmDispense (some (firstCassette 1 100000)))).2.cashUnits = initializeCassettes :=
    executeDispense_custom (.new initializeCassettes) rfl htotal
  rw [hkept]
  intro hexact
  have hunit : initializeCassettes.values[0]? =
      some ⟨"CASS1", 100000, .ok, 500, 500, 2500, 50⟩ := rfl
  obtain ⟨v, hv, -, hcount⟩ := hexact 0 _ hunit
  rw [hunit, Option.some.injEq] at hv
  subst hv
  exact absurd hcount (by decide)

end AtmXfs.Dll
