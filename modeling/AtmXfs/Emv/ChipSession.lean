import AtmXfs.Emv.Handlers
import AtmXfs.Lib.Runs

namespace AtmXfs.Emv

open Js

inductive ChipCall where
  | powerOn | powerOff
  | transmitApdu (apdu : Text)
  deriving DecidableEq

structure ChipEntry where
  call : ChipCall
  answer : Except ChipError (Option ApduResponse)

/-- A chip with what it was called with and what it answered, newest first. -/
structure ChipSession where
  chip : EmvSimulator
  log : List ChipEntry

def parsed (apdu : Text) : Option ParsedApdu := (parseApdu apdu).toOption

def isSelectAid (apdu : Text) : Bool := (parsed apdu).any fun a =>
  a.cla = 0x00 ∧ a.ins = 0xa4 ∧ hexText a.data ≠ PSE_NAME ∧ isAid (hexText a.data)

def isGenerateAc (apdu : Text) : Bool := (parsed apdu).any fun a => a.cla = 0x80 ∧ a.ins = 0xae

/-- GET PROCESSING OPTIONS, READ RECORD and GENERATE AC. -/
def needsAid (apdu : Text) : Bool := (parsed apdu).any fun a =>
  (a.cla = 0x80 ∧ a.ins = 0xa8) ∨ (a.cla = 0x00 ∧ a.ins = 0xb2) ∨ (a.cla = 0x80 ∧ a.ins = 0xae)

namespace ChipEntry

/-- The data of an answer 9000 to an APDU of the given kind. -/
def granted (e : ChipEntry) (kind : Text → Bool) : Option Text :=
  match e.call, e.answer with
  | .transmitApdu apdu, .ok (some r) => if kind apdu && r.accepted then some r.data else none
  | _, _ => none

end ChipEntry

def poweredIn : List ChipEntry → Bool
  | [] => false
  | e :: older => match e.call with
    | .powerOn => true
    | .powerOff => false
    | .transmitApdu _ => poweredIn older

/-- An AID was selected since the last powerOn. -/
def selectedIn : List ChipEntry → Bool
  | [] => false
  | e :: older => e.call ≠ .powerOn ∧ ((e.granted isSelectAid).isSome ∨ selectedIn older)

/-- The data of the last GENERATE AC answer since powerOn. -/
def lastCounter : List ChipEntry → Option Text
  | [] => none
  | e :: older => if e.call = .powerOn then none
    else (e.granted isGenerateAc).or (lastCounter older)

/-- What a powered chip owes: an answer to every APDU, 9000 exactly with an AID selected, and a
counter one greater than the one before. -/
def properAnswer (e : ChipEntry) (older : List ChipEntry) : Prop :=
  ∀ apdu, e.call = .transmitApdu apdu → poweredIn older = true →
    ∃ r, e.answer = .ok (some r) ∧
      (needsAid apdu = true → (r.accepted = true ↔ selectedIn older = true)) ∧
      (isGenerateAc apdu = true → r.accepted = true →
        ∃ n, Carries r.data n ∧
          ∀ data m, lastCounter older = some data → Carries data m → n = m + 1)

namespace ChipSession

def start (chip : EmvSimulator) : ChipSession := ⟨chip, []⟩

def perform (chip : EmvSimulator) : ChipCall →
    EmvSimulator × Except ChipError (Option ApduResponse)
  | .powerOn => (chip.powerOn.1, .ok none)
  | .powerOff => (chip.powerOff, .ok none)
  | .transmitApdu apdu => ((chip.transmitApdu apdu).1, (chip.transmitApdu apdu).2.map some)

def parseable : ChipCall → Bool
  | .transmitApdu apdu => (parsed apdu).isSome
  | _ => true

def step (s : ChipSession) (call : ChipCall) : Option ChipSession :=
  if parseable call then
    some ⟨(perform s.chip call).1, ⟨call, (perform s.chip call).2⟩ :: s.log⟩
  else none

def Proper (s : ChipSession) : Prop := Runs.Each properAnswer s.log

/-- No GENERATE AC is asked for at the last counter of two bytes. -/
def counterFits (s : ChipSession) : ChipCall → Bool
  | .transmitApdu apdu =>
    !(isGenerateAc apdu && s.chip.powered && s.chip.selectedAid.isSome) || s.chip.atc < 65535
  | _ => true

/-- What the state of the chip says about the calls made so far. -/
structure Tracked (s : ChipSession) : Prop where
  card : s.chip.card.Valid
  powered : s.chip.powered = poweredIn s.log
  selected : s.chip.powered = true → s.chip.selectedAid.isSome = selectedIn s.log
  counter : Runs.Each properAnswer s.log →
    s.chip.atc ≤ 65535 ∧ ∀ data m, lastCounter s.log = some data → Carries data m → m = s.chip.atc

end ChipSession

/-- What a powered chip does with a parsed APDU as long as the counter fits. -/
structure Routed (sim : EmvSimulator) (a : ParsedApdu) (apdu : Text) : Prop where
  card : (sim.route a).1.card = sim.card
  powered : (sim.route a).1.powered = sim.powered
  answer : ∃ r, (sim.route a).2 = .ok r ∧
    (needsAid apdu = true → (r.accepted = true ↔ sim.selectedAid.isSome = true)) ∧
    ((sim.route a).1.selectedAid.isSome = true ↔
      (isSelectAid apdu = true ∧ r.accepted = true) ∨ sim.selectedAid.isSome = true) ∧
    (isGenerateAc apdu = true → r.accepted = true →
      (sim.route a).1.atc = sim.atc + 1 ∧ ∀ m, Carries r.data m ↔ m = sim.atc + 1) ∧
    (isGenerateAc apdu = true → r.accepted = false → (sim.route a).1.atc = sim.atc) ∧
    (isGenerateAc apdu = false → (sim.route a).1.atc = sim.atc)

section Routed

variable {sim : EmvSimulator} {a : ParsedApdu} {apdu : Text}

theorem routed_select (hparsed : parsed apdu = some a) (hcla : a.cla = 0x00)
    (hins : a.ins = 0xa4) : Routed sim a apdu := by
  have hgen : isGenerateAc apdu = false := by simp [isGenerateAc, hparsed, hcla]
  have hneeds : needsAid apdu = false := by simp [needsAid, hparsed, hcla, hins]
  have hroute : sim.route a = sim.handleSelect (hexText a.data) := by
    rw [EmvSimulator.route, if_pos ⟨hcla, hins⟩]
  have hselects : isSelectAid apdu = true ↔
      hexText a.data ≠ PSE_NAME ∧ isAid (hexText a.data) = true := by
    simp [isSelectAid, hparsed, hcla, hins]
  by_cases hpse : hexText a.data = PSE_NAME
  · obtain ⟨data, hselect⟩ := EmvSimulator.handleSelect_pse sim
    rw [hpse] at hroute hselects
    rw [hselect] at hroute
    refine ⟨by rw [hroute], by rw [hroute], SW.OK data, by rw [hroute], ?_⟩
    simp [hneeds, hgen, hroute, hselects]
  · by_cases haid : isAid (hexText a.data) = true
    · obtain ⟨data, hselect⟩ := EmvSimulator.handleSelect_aid sim hpse haid
      rw [hselect] at hroute
      refine ⟨by rw [hroute], by rw [hroute], SW.OK data, by rw [hroute], ?_⟩
      simp [hneeds, hgen, hroute, hselects, hpse, haid]
    · have hselect : sim.handleSelect (hexText a.data) = (sim, .ok SW.WARNING_FILE_NOT_FOUND) := by
        rw [EmvSimulator.handleSelect, if_neg hpse, if_neg haid]
      rw [hselect] at hroute
      refine ⟨by rw [hroute], by rw [hroute], SW.WARNING_FILE_NOT_FOUND, by rw [hroute], ?_⟩
      simp [hneeds, hgen, hroute, hselects, hpse, haid]

/-- An APDU that is no GENERATE AC and whose handler keeps the AID and the counter. -/
theorem routed_of_quiet {next : EmvSimulator} {r : ApduResponse}
    (hroute : sim.route a = (next, .ok r)) (hcard : next.card = sim.card)
    (hpowered : next.powered = sim.powered) (haid : next.selectedAid = sim.selectedAid)
    (hatc : next.atc = sim.atc) (hgen : isGenerateAc apdu = false)
    (hselects : isSelectAid apdu = false)
    (hneeds : needsAid apdu = true → (r.accepted = true ↔ sim.selectedAid.isSome = true)) :
    Routed sim a apdu := by
  refine ⟨by rw [hroute]; exact hcard, by rw [hroute]; exact hpowered, r, by rw [hroute], hneeds,
    ?_⟩
  simp [hroute, haid, hgen, hselects, hatc]

theorem routed_gpo (hparsed : parsed apdu = some a) (hcla : a.cla = 0x80) (hins : a.ins = 0xa8) :
    Routed sim a apdu := by
  have hgen : isGenerateAc apdu = false := by simp [isGenerateAc, hparsed, hins]
  have hselects : isSelectAid apdu = false := by simp [isSelectAid, hparsed, hcla]
  have hroute : sim.route a = sim.handleGpo := by simp [EmvSimulator.route, hcla, hins]
  cases haid : sim.selectedAid.isSome with
  | true =>
    obtain ⟨data, hgpo⟩ := EmvSimulator.handleGpo_selected haid
    exact routed_of_quiet (hroute.trans hgpo) rfl rfl rfl rfl hgen hselects (by simp [haid])
  | false =>
    have hgpo : sim.handleGpo = (sim, .ok SW.CONDITIONS_NOT_SATISFIED) := by
      rw [EmvSimulator.handleGpo, if_pos (by simpa using haid)]
    exact routed_of_quiet (hroute.trans hgpo) rfl rfl rfl rfl hgen hselects
      (by simp [haid, ApduResponse.accepted, SW.CONDITIONS_NOT_SATISFIED])

theorem routed_readRecord (hcard : sim.card.Valid) (hparsed : parsed apdu = some a)
    (hcla : a.cla = 0x00) (hins : a.ins = 0xb2) : Routed sim a apdu := by
  have hgen : isGenerateAc apdu = false := by simp [isGenerateAc, hparsed, hcla]
  have hselects : isSelectAid apdu = false := by simp [isSelectAid, hparsed, hins]
  have hroute : sim.route a = sim.handleReadRecord a.p1 := by
    simp [EmvSimulator.route, hcla, hins]
  cases haid : sim.selectedAid.isSome with
  | true =>
    obtain ⟨data, hread⟩ := EmvSimulator.handleReadRecord_selected hcard a.p1 haid
    exact routed_of_quiet (hroute.trans hread) rfl rfl rfl rfl hgen hselects (by simp [haid])
  | false =>
    have hread : sim.handleReadRecord a.p1 = (sim, .ok SW.CONDITIONS_NOT_SATISFIED) := by
      rw [EmvSimulator.handleReadRecord, if_pos (by simpa using haid)]
    exact routed_of_quiet (hroute.trans hread) rfl rfl rfl rfl hgen hselects
      (by simp [haid, ApduResponse.accepted, SW.CONDITIONS_NOT_SATISFIED])

theorem route_generateAc (hparsed : parsed apdu = some a) (hgen : isGenerateAc apdu = true) :
    sim.route a = sim.handleGenerateAc := by
  have hkind : a.cla = 0x80 ∧ a.ins = 0xae := by simpa [isGenerateAc, hparsed] using hgen
  simp [EmvSimulator.route, hkind.1, hkind.2]

theorem routed_generateAc (hparsed : parsed apdu = some a) (hgen : isGenerateAc apdu = true)
    (hfits : sim.selectedAid.isSome = true → sim.atc < 65535) : Routed sim a apdu := by
  have hkind : a.cla = 0x80 ∧ a.ins = 0xae := by simpa [isGenerateAc, hparsed] using hgen
  have hselects : isSelectAid apdu = false := by simp [isSelectAid, hparsed, hkind.1]
  have hroute : sim.route a = sim.handleGenerateAc := route_generateAc hparsed hgen
  cases haid : sim.selectedAid.isSome with
  | true =>
    obtain ⟨data, hac, hcarries⟩ := EmvSimulator.handleGenerateAc_selected haid (hfits haid)
    rw [hac] at hroute
    refine ⟨by rw [hroute], by rw [hroute], SW.OK data, by rw [hroute], ?_⟩
    have hdata : (SW.OK data).data = data := rfl
    simp [hroute, haid, hgen, hdata, hcarries]
  | false =>
    have hac : sim.handleGenerateAc = (sim, .ok SW.CONDITIONS_NOT_SATISFIED) := by
      rw [EmvSimulator.handleGenerateAc, if_pos (by simpa using haid)]
    rw [hac] at hroute
    refine ⟨by rw [hroute], by rw [hroute], SW.CONDITIONS_NOT_SATISFIED, by rw [hroute], ?_⟩
    simp [hroute, haid, hgen, hselects, ApduResponse.accepted, SW.CONDITIONS_NOT_SATISFIED]

theorem routed (hcard : sim.card.Valid) (hparsed : parsed apdu = some a)
    (hfits : isGenerateAc apdu = true → sim.selectedAid.isSome = true → sim.atc < 65535) :
    Routed sim a apdu := by
  by_cases hselect : a.cla = 0x00 ∧ a.ins = 0xa4
  · exact routed_select hparsed hselect.1 hselect.2
  · by_cases hgpo : a.cla = 0x80 ∧ a.ins = 0xa8
    · exact routed_gpo hparsed hgpo.1 hgpo.2
    · by_cases hread : a.cla = 0x00 ∧ a.ins = 0xb2
      · exact routed_readRecord hcard hparsed hread.1 hread.2
      · by_cases hgen : a.cla = 0x80 ∧ a.ins = 0xae
        · have hgen' : isGenerateAc apdu = true := by
            simp [isGenerateAc, hparsed, hgen.1, hgen.2]
          exact routed_generateAc hparsed hgen' (hfits hgen')
        · have hroute : sim.route a = (sim, .ok SW.INS_NOT_SUPPORTED) := by
            rw [EmvSimulator.route, if_neg hselect, if_neg hgpo, if_neg hread, if_neg hgen]
          have hgen' : isGenerateAc apdu = false := by simpa [isGenerateAc, hparsed] using hgen
          refine routed_of_quiet hroute rfl rfl rfl rfl hgen' ?_ ?_
          · rw [isSelectAid, hparsed]
            simp only [Option.any_some, decide_eq_false_iff_not]
            exact fun h => hselect ⟨h.1, h.2.1⟩
          · rw [needsAid, hparsed]
            simp only [Option.any_some, decide_eq_true_eq]
            intro h
            rcases h with h | h | h
            · exact absurd h hgpo
            · exact absurd h hread
            · exact absurd h hgen

end Routed

theorem needsAid_of_generateAc {apdu : Text} (h : isGenerateAc apdu = true) :
    needsAid apdu = true := by
  unfold isGenerateAc at h
  unfold needsAid
  cases hparsed : parsed apdu with
  | none => simp [hparsed] at h
  | some a =>
    have hkind : a.cla = 0x80 ∧ a.ins = 0xae := by simpa [hparsed] using h
    simp [hkind]

theorem not_selectAid_of_generateAc {apdu : Text} (h : isGenerateAc apdu = true) :
    isSelectAid apdu = false := by
  unfold isGenerateAc at h
  unfold isSelectAid
  cases hparsed : parsed apdu with
  | none => rfl
  | some a =>
    have hkind : a.cla = 0x80 ∧ a.ins = 0xae := by simpa [hparsed] using h
    simp [hkind]

namespace ChipSession

variable {s t : ChipSession}

theorem perform_powered {chip : EmvSimulator} {apdu : Text} {a : ParsedApdu}
    (hpowered : chip.powered = true) (hparsed : parsed apdu = some a) :
    perform chip (.transmitApdu apdu) =
      ((chip.route a).1, ((chip.route a).2.mapError .codec).map some) := by
  have hok : parseApdu apdu = .ok a := by
    unfold parsed at hparsed
    cases hparse : parseApdu apdu with
    | error e =>
      rw [hparse] at hparsed
      cases hparsed
    | ok a' =>
      rw [hparse] at hparsed
      cases hparsed
      rfl
  have hon : ¬ chip.powered = false := by simp [hpowered]
  simp only [perform, EmvSimulator.transmitApdu, if_neg hon, hok]

theorem perform_unpowered {chip : EmvSimulator} {apdu : Text} (hpowered : chip.powered = false) :
    perform chip (.transmitApdu apdu) = (chip, .error .notPowered) := by
  simp only [perform, EmvSimulator.transmitApdu, if_pos hpowered]
  rfl

/-- A chip that is off answers nothing, and stays as it is. -/
theorem tracked_unpowered (h : Tracked s) {apdu : Text} (hpowered : s.chip.powered = false) :
    Tracked ⟨s.chip, ⟨.transmitApdu apdu, .error .notPowered⟩ :: s.log⟩ where
  card := h.card
  powered := h.powered
  selected hon := by simp [hpowered] at hon
  counter hproper := h.counter hproper.2

/-- What a powered chip answered to an APDU that fits. -/
theorem tracked_routed (h : Tracked s) {apdu : Text} {a : ParsedApdu}
    (hpowered : s.chip.powered = true) (hr : Routed s.chip a apdu)
    (hfits : isGenerateAc apdu = true → s.chip.selectedAid.isSome = true → s.chip.atc < 65535)
    {r : ApduResponse} (hanswer : (s.chip.route a).2 = .ok r) :
    Tracked ⟨(s.chip.route a).1, ⟨.transmitApdu apdu, .ok (some r)⟩ :: s.log⟩ := by
  obtain ⟨r', hr', hneeds, hselected, hac, hrefused, hother⟩ := hr.answer
  rw [hanswer] at hr'
  cases hr'
  refine ⟨by rw [hr.card]; exact h.card, by rw [hr.powered, h.powered]; rfl, fun _ => ?_, ?_⟩
  · rw [Bool.eq_iff_iff, hselected, h.selected hpowered]
    simp [selectedIn, ChipEntry.granted]
  · rintro ⟨-, hproper⟩
    obtain ⟨hatc, hlast⟩ := h.counter hproper
    cases hgen : isGenerateAc apdu with
    | false =>
      have hkeep : lastCounter (⟨.transmitApdu apdu, .ok (some r)⟩ :: s.log) =
          lastCounter s.log := by simp [lastCounter, ChipEntry.granted, hgen]
      show (s.chip.route a).1.atc ≤ 65535 ∧ _
      rw [hother hgen, hkeep]
      exact ⟨hatc, hlast⟩
    | true =>
      cases haccepted : r.accepted with
      | false =>
        have hkeep : lastCounter (⟨.transmitApdu apdu, .ok (some r)⟩ :: s.log) =
            lastCounter s.log := by simp [lastCounter, ChipEntry.granted, haccepted]
        show (s.chip.route a).1.atc ≤ 65535 ∧ _
        rw [hrefused hgen haccepted, hkeep]
        exact ⟨hatc, hlast⟩
      | true =>
        obtain ⟨hnext, hcarries⟩ := hac hgen haccepted
        have hfresh : lastCounter (⟨.transmitApdu apdu, .ok (some r)⟩ :: s.log) = some r.data := by
          simp [lastCounter, ChipEntry.granted, hgen, haccepted]
        have hlow := hfits hgen ((hneeds (needsAid_of_generateAc hgen)).mp haccepted)
        show (s.chip.route a).1.atc ≤ 65535 ∧ _
        rw [hnext, hfresh]
        refine ⟨hlow, ?_⟩
        rintro data m hdata hm
        cases hdata
        exact (hcarries m).mp hm

/-- Asked for one counter too many the chip throws, and the run so far is not proper any more. -/
theorem tracked_overflow (h : Tracked s) {apdu : Text} {a : ParsedApdu}
    (hpowered : s.chip.powered = true) (hparsed : parsed apdu = some a)
    (hgen : isGenerateAc apdu = true) (haid : s.chip.selectedAid.isSome = true)
    (hatc : 65535 ≤ s.chip.atc) (answer : Except ChipError (Option ApduResponse))
    (hanswer : s.chip.atc = 65535 → answer = .error (.codec (.oddHex 5))) :
    Tracked ⟨(s.chip.route a).1, ⟨.transmitApdu apdu, answer⟩ :: s.log⟩ := by
  have hstate : (s.chip.route a).1 = { s.chip with atc := s.chip.atc + 1 } := by
    rw [route_generateAc hparsed hgen, EmvSimulator.handleGenerateAc,
      if_neg (EmvSimulator.not_isNone haid)]
  have hselects : isSelectAid apdu = false := not_selectAid_of_generateAc hgen
  rw [hstate]
  refine ⟨h.card, h.powered, fun _ => ?_, ?_⟩
  · have hnone : (ChipEntry.mk (.transmitApdu apdu) answer).granted isSelectAid = none := by
      unfold ChipEntry.granted
      split
      · rename_i hcall _
        cases hcall
        simp [hselects]
      · rfl
    show s.chip.selectedAid.isSome = _
    simp [selectedIn, hnone, ← h.selected hpowered]
  · rintro ⟨hentry, hproper⟩
    have heq : s.chip.atc = 65535 := le_antisymm (h.counter hproper).1 hatc
    obtain ⟨r, hr, -⟩ := hentry apdu rfl (h.powered.symm.trans hpowered)
    rw [hanswer heq] at hr
    cases hr

theorem parsed_of_step {apdu : Text} (hstep : step s (.transmitApdu apdu) = some t) :
    ∃ a, parsed apdu = some a ∧
      t = ⟨(perform s.chip (.transmitApdu apdu)).1,
        ⟨.transmitApdu apdu, (perform s.chip (.transmitApdu apdu)).2⟩ :: s.log⟩ := by
  rw [step] at hstep
  split_ifs at hstep with hparse
  obtain ⟨a, ha⟩ := Option.isSome_iff_exists.mp hparse
  exact ⟨a, ha, (Option.some.inj hstep).symm⟩

theorem counterFits_iff {apdu : Text} : counterFits s (.transmitApdu apdu) = true ↔
    (s.chip.powered = true → isGenerateAc apdu = true → s.chip.selectedAid.isSome = true →
      s.chip.atc < 65535) := by
  cases hpowered : s.chip.powered <;> cases hgen : isGenerateAc apdu <;>
    cases haid : s.chip.selectedAid.isSome <;> simp [counterFits, hpowered, hgen, haid]

theorem overflow_answer {chip : EmvSimulator} {apdu : Text} {a : ParsedApdu}
    (hparsed : parsed apdu = some a) (hgen : isGenerateAc apdu = true)
    (haid : chip.selectedAid.isSome = true) (hatc : chip.atc = 65535) :
    ((chip.route a).2.mapError ChipError.codec).map some = .error (.codec (.oddHex 5)) := by
  rw [route_generateAc hparsed hgen, EmvSimulator.handleGenerateAc_overflow haid hatc]
  rfl

theorem tracked_step (call : ChipCall) (h : Tracked s) (hstep : step s call = some t) :
    Tracked t := by
  cases call with
  | powerOn =>
    cases hstep
    exact ⟨h.card, rfl, fun _ => by simp [selectedIn, perform, EmvSimulator.powerOn],
      fun _ => ⟨Nat.zero_le _, fun data m hlast => by simp [lastCounter] at hlast⟩⟩
  | powerOff =>
    cases hstep
    refine ⟨h.card, rfl, fun hon => by simp [perform, EmvSimulator.powerOff] at hon, ?_⟩
    rintro ⟨-, hproper⟩
    have hkeep : lastCounter (⟨.powerOff, .ok none⟩ :: s.log) = lastCounter s.log := by
      simp [lastCounter, ChipEntry.granted]
    show s.chip.atc ≤ 65535 ∧ _
    rw [perform, hkeep]
    exact h.counter hproper
  | transmitApdu apdu =>
    obtain ⟨a, hparsed, rfl⟩ := parsed_of_step hstep
    cases hpowered : s.chip.powered with
    | false =>
      rw [perform_unpowered hpowered]
      exact tracked_unpowered h hpowered
    | true =>
      rw [perform_powered hpowered hparsed]
      by_cases hfits : isGenerateAc apdu = true → s.chip.selectedAid.isSome = true →
          s.chip.atc < 65535
      · have hr := routed h.card hparsed hfits
        obtain ⟨r, hanswer, -⟩ := hr.answer
        have htracked := tracked_routed h hpowered hr hfits hanswer
        rw [hanswer]
        exact htracked
      · rw [Classical.not_imp, Classical.not_imp] at hfits
        obtain ⟨hgen, haid, hatc⟩ := hfits
        exact tracked_overflow h hpowered hparsed hgen haid (Nat.le_of_not_lt hatc) _
          (overflow_answer hparsed hgen haid)

/-- One call is answered properly exactly when it does not ask for one counter too many. -/
theorem proper_step_iff (call : ChipCall) (h : Tracked s) (hproper : Proper s)
    (hstep : step s call = some t) : Proper t ↔ counterFits s call = true := by
  cases call with
  | powerOn | powerOff =>
    cases hstep
    exact ⟨fun _ => rfl, fun _ => ⟨fun apdu hcall => (by cases hcall), hproper⟩⟩
  | transmitApdu apdu =>
    obtain ⟨a, hparsed, rfl⟩ := parsed_of_step hstep
    rw [counterFits_iff]
    cases hpowered : s.chip.powered with
    | false =>
      refine ⟨fun _ hon => (by cases hon), fun _ => ⟨fun apdu' hcall hon => ?_, hproper⟩⟩
      rw [← h.powered, hpowered] at hon
      cases hon
    | true =>
      rw [perform_powered hpowered hparsed]
      constructor
      · rintro ⟨hentry, -⟩ - hgen haid
        by_contra hatc
        have heq : s.chip.atc = 65535 :=
          le_antisymm (h.counter hproper).1 (Nat.le_of_not_lt hatc)
        obtain ⟨r, hr, -⟩ := hentry apdu rfl (h.powered.symm.trans hpowered)
        have hthrown := overflow_answer hparsed hgen haid heq
        rw [hthrown] at hr
        cases hr
      · intro hfits
        obtain ⟨r, hanswer, hneeds, -, hac, -⟩ :=
          (routed h.card hparsed (hfits rfl)).answer
        refine ⟨fun apdu' hcall _ => ⟨r, by rw [hanswer]; rfl, ?_, ?_⟩, hproper⟩
        · cases hcall
          rw [← h.selected hpowered]
          exact hneeds
        · cases hcall
          intro hgen haccepted
          obtain ⟨-, hcarries⟩ := hac hgen haccepted
          refine ⟨s.chip.atc + 1, (hcarries _).mpr rfl, fun data m hlast hm => ?_⟩
          rw [(h.counter hproper).2 data m hlast hm]

theorem tracked_start {card : EmvCardData} {chip : EmvSimulator}
    (h : EmvSimulator.new card = .ok chip) : Tracked (start chip) := by
  obtain ⟨hcard, rfl⟩ := EmvSimulator.new_eq_ok h
  exact ⟨hcard, rfl, fun hon => (by cases hon),
    fun _ => ⟨Nat.zero_le _, fun data m hlast => (by cases hlast)⟩⟩

/-- The runs in which a chip answers properly to the end. -/
theorem proper_iff {chip : EmvSimulator} (h : Tracked (start chip)) (calls : List ChipCall) :
    Runs.Always step Proper (start chip) calls ↔
      Runs.Along step (fun s call => counterFits s call = true) (start chip) calls :=
  Runs.always_iff_along Tracked (fun _ call _ ht hstep => tracked_step call ht hstep)
    (fun _ call _ ht hp hstep => proper_step_iff call ht hp hstep) h trivial

end ChipSession

/-- A chip answers properly in a run exactly when it is asked for no counter behind 65535. -/
theorem chip_proper_iff (card : EmvCardData) (chip : EmvSimulator)
    (hnew : EmvSimulator.new card = .ok chip) (calls : List ChipCall) :
    Runs.Always ChipSession.step ChipSession.Proper (.start chip) calls ↔
      Runs.Along ChipSession.step (fun s call => s.counterFits call = true) (.start chip) calls :=
  ChipSession.proper_iff (ChipSession.tracked_start hnew) calls

def sampleCard : EmvCardData :=
  ⟨utf16 "4580123456787234", utf16 "2812", utf16 "BAJWA/TESTING"⟩

def sampleChip : EmvSimulator := ⟨sampleCard, false, none, 0, 1⟩

def selectVisa : ChipCall := .transmitApdu (utf16 "00A4040007A000000003101000")

def generateAc : ChipCall := .transmitApdu (utf16 "80AE800000")

theorem chip_proper_twoCounters : Runs.Always ChipSession.step ChipSession.Proper
    (.start sampleChip) [.powerOn, selectVisa, generateAc, generateAc] :=
  (chip_proper_iff sampleCard sampleChip (by decide +kernel)
    [.powerOn, selectVisa, generateAc, generateAc]).mpr (by decide +kernel)

/-- So many GENERATE AC, one after the other, on a chip with an AID selected. -/
theorem exec_generateAc (n : Nat) {s : ChipSession} (hpowered : s.chip.powered = true)
    (haid : s.chip.selectedAid.isSome = true) :
    ∃ t, Runs.exec ChipSession.step s (List.replicate n generateAc) = some t ∧
      t.chip.powered = true ∧ t.chip.selectedAid.isSome = true ∧
      t.chip.atc = s.chip.atc + n := by
  induction n generalizing s with
  | zero => exact ⟨s, rfl, hpowered, haid, rfl⟩
  | succ n ih =>
    obtain ⟨a, hparsed⟩ : ∃ a, parsed (utf16 "80AE800000") = some a :=
      Option.isSome_iff_exists.mp (by decide +kernel)
    have hgen : isGenerateAc (utf16 "80AE800000") = true := by decide +kernel
    have hstate : (s.chip.route a).1 = { s.chip with atc := s.chip.atc + 1 } := by
      rw [route_generateAc hparsed hgen, EmvSimulator.handleGenerateAc,
        if_neg (EmvSimulator.not_isNone haid)]
    have hperform : (ChipSession.perform s.chip generateAc).1 =
        { s.chip with atc := s.chip.atc + 1 } := by
      rw [generateAc, ChipSession.perform_powered hpowered hparsed]
      exact hstate
    have hstep : ChipSession.step s generateAc =
        some ⟨{ s.chip with atc := s.chip.atc + 1 },
          ⟨generateAc, (ChipSession.perform s.chip generateAc).2⟩ :: s.log⟩ := by
      have hparse : ChipSession.parseable generateAc = true := by decide +kernel
      rw [ChipSession.step, if_pos hparse, hperform]
    obtain ⟨t, ht, hon, hselected, hatc⟩ := ih (s := ⟨{ s.chip with atc := s.chip.atc + 1 },
      ⟨generateAc, (ChipSession.perform s.chip generateAc).2⟩ :: s.log⟩) hpowered haid
    refine ⟨t, ?_, hon, hselected, by rw [hatc]; show s.chip.atc + 1 + n = _; omega⟩
    rw [List.replicate_succ, Runs.exec_cons, hstep]
    exact ht

/-- The 65536th GENERATE AC throws. -/
theorem counter_overflows : ¬ Runs.Always ChipSession.step ChipSession.Proper
    (.start sampleChip) ([.powerOn, selectVisa] ++ List.replicate 65536 generateAc) := by
  have hnew : EmvSimulator.new sampleCard = .ok sampleChip := by decide +kernel
  rw [ChipSession.proper_iff (ChipSession.tracked_start hnew)]
  obtain ⟨s, hs, hpowered, haid, hzero⟩ : ∃ s : ChipSession,
      Runs.exec ChipSession.step (.start sampleChip) [.powerOn, selectVisa] = some s ∧
        s.chip.powered = true ∧ s.chip.selectedAid.isSome = true ∧ s.chip.atc = 0 := by
    have hready : ((Runs.exec ChipSession.step (.start sampleChip) [.powerOn, selectVisa]).any
        fun s => s.chip.powered && s.chip.selectedAid.isSome && s.chip.atc == 0) = true := by
      decide +kernel
    obtain ⟨s, hs, hstate⟩ := (Option.any_eq_true _ _).mp hready
    simp only [Bool.and_eq_true, beq_iff_eq] at hstate
    exact ⟨s, hs, hstate.1.1, hstate.1.2, hstate.2⟩
  obtain ⟨t, ht, hon, hselected, hatc⟩ := exec_generateAc 65535 hpowered haid
  intro halong
  rw [Runs.along_append _ hs, List.replicate_succ' , Runs.along_append _ ht] at halong
  have hparse : ChipSession.parseable generateAc = true := by decide +kernel
  obtain ⟨hfits, -⟩ := halong.2.2 _ (by rw [ChipSession.step, if_pos hparse])
  have hgen : isGenerateAc (utf16 "80AE800000") = true := by decide +kernel
  have hlow := ChipSession.counterFits_iff.mp hfits hon hgen hselected
  omega

end AtmXfs.Emv
