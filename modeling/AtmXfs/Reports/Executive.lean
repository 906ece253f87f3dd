import Mathlib.Data.List.Induction
import Mathlib.Data.List.Nodup
import Mathlib.Data.List.Perm.Basic
import Mathlib.Data.Int.LeastGreatest
import Mathlib.Order.Monotone.Basic
import Mathlib.Tactic.NormNum

namespace AtmXfs.Reports

/-- What the executive summary reads of a macro run; `startedAt` in milliseconds. -/
structure RunRow where
  macroId : String
  macroName : String
  status : String
  startedAt : Int
  deriving DecidableEq

def RunRow.failed (r : RunRow) : Bool := r.status = "FAILED"

/-- An entry of `failByMacro`, with its key. -/
structure Failing where
  macroId : String
  name : String
  count : Nat
  deriving DecidableEq

/-- `failByMacro.get`, and then the count or `failByMacro.set`; the map keeps its keys in the order
in which they came. -/
def countFailure (failByMacro : List Failing) (r : RunRow) : List Failing :=
  if failByMacro.any (·.macroId = r.macroId) then
    failByMacro.map fun f => if f.macroId = r.macroId then { f with count := f.count + 1 } else f
  else failByMacro ++ [⟨r.macroId, r.macroName, 1⟩]

def failByMacro (runs : List RunRow) : List Failing :=
  runs.foldl (fun m r => if r.failed then countFailure m r else m) []

/-- The sort is stable. -/
def topFailing (runs : List RunRow) : List Failing :=
  ((failByMacro runs).mergeSort fun a b => b.count ≤ a.count).take 5

/-- The failures of a macro. -/
def failures (runs : List RunRow) (macroId : String) : Nat :=
  runs.countP fun r => r.failed && r.macroId = macroId

/-- The map has each macro that failed once, with the number of its failures. -/
structure Counted (m : List Failing) (runs : List RunRow) : Prop where
  once : (m.map (·.macroId)).Nodup
  count : ∀ f ∈ m, f.count = failures runs f.macroId
  named : ∀ f ∈ m, ∃ r ∈ runs, r.failed = true ∧ r.macroId = f.macroId ∧ r.macroName = f.name
  all : ∀ r ∈ runs, r.failed = true → r.macroId ∈ m.map (·.macroId)

theorem failures_concat (runs : List RunRow) (r : RunRow) (macroId : String) :
    failures (runs ++ [r]) macroId =
      failures runs macroId + if r.failed && r.macroId = macroId then 1 else 0 := by
  rw [failures, List.countP_append, List.countP_singleton, ← failures]

theorem Counted.passed {m : List Failing} {runs : List RunRow} (h : Counted m runs) {r : RunRow}
    (hr : r.failed = false) : Counted m (runs ++ [r]) where
  once := h.once
  count f hf := by
    rw [failures_concat, hr]
    simpa using h.count f hf
  named f hf := by
    obtain ⟨r', hr', hnamed⟩ := h.named f hf
    exact ⟨r', List.mem_append_left _ hr', hnamed⟩
  all r' hr' hfailed := by
    rcases List.mem_append.mp hr' with hold | hnew
    · exact h.all r' hold hfailed
    · rw [List.mem_singleton.mp hnew, hr] at hfailed
      cases hfailed

theorem map_counted (m : List Failing) (macroId : String) :
    (m.map fun f => if f.macroId = macroId then { f with count := f.count + 1 } else f).map
      (·.macroId) = m.map (·.macroId) := by
  rw [List.map_map]
  apply List.map_congr_left
  intro f _
  simp only [Function.comp_apply]
  split <;> rfl

/-- One failure more. -/
theorem Counted.countFailure {m : List Failing} {runs : List RunRow} (h : Counted m runs)
    {r : RunRow} (hr : r.failed = true) : Counted (countFailure m r) (runs ++ [r]) := by
  unfold Reports.countFailure
  by_cases hany : m.any (·.macroId = r.macroId) = true
  · rw [if_pos hany]
    obtain ⟨g, hg, hgr⟩ := List.any_eq_true.mp hany
    have hid : g.macroId = r.macroId := of_decide_eq_true hgr
    refine ⟨?_, ?_, ?_, ?_⟩
    · rw [map_counted]
      exact h.once
    · intro f hf
      obtain ⟨f', hf', rfl⟩ := List.mem_map.mp hf
      have hcount := h.count f' hf'
      rw [failures_concat, hr]
      by_cases heq : f'.macroId = r.macroId
      · simp [heq, hcount]
      · simp [heq, hcount, Ne.symm heq]
    · intro f hf
      obtain ⟨f', hf', rfl⟩ := List.mem_map.mp hf
      obtain ⟨r', hr', hfailed, hsame, hname⟩ := h.named f' hf'
      refine ⟨r', List.mem_append_left _ hr', hfailed, ?_⟩
      split <;> exact ⟨hsame, hname⟩
    · intro r' hr' hfailed
      rw [map_counted]
      rcases List.mem_append.mp hr' with hold | hnew
      · exact h.all r' hold hfailed
      · rw [List.mem_singleton.mp hnew, ← hid]
        exact List.mem_map_of_mem hg
  · rw [if_neg hany]
    have hnone : ∀ f ∈ m, f.macroId ≠ r.macroId := by
      intro f hf heq
      exact hany (List.any_eq_true.mpr ⟨f, hf, decide_eq_true heq⟩)
    have hfirst : failures runs r.macroId = 0 := by
      apply List.countP_eq_zero.mpr
      intro r' hr' hboth
      obtain ⟨hfailed, hsame⟩ : r'.failed = true ∧ r'.macroId = r.macroId := by simpa using hboth
      obtain ⟨f, hf, hid⟩ := List.mem_map.mp (h.all r' hr' hfailed)
      exact hnone f hf (hid.trans hsame)
    refine ⟨?_, ?_, ?_, ?_⟩
    · rw [List.map_append, List.map_singleton]
      refine h.once.append (List.nodup_singleton _) ?_
      intro id hid hnew
      obtain ⟨f, hf, rfl⟩ := List.mem_map.mp hid
      exact hnone f hf (List.mem_singleton.mp hnew)
    · intro f hf
      rw [failures_concat, hr]
      rcases List.mem_append.mp hf with hold | hnew
      · simp [h.count f hold, Ne.symm (hnone f hold)]
      · rw [List.mem_singleton.mp hnew]
        simp [hfirst]
    · intro f hf
      rcases List.mem_append.mp hf with hold | hnew
      · obtain ⟨r', hr', hnamed⟩ := h.named f hold
        exact ⟨r', List.mem_append_left _ hr', hnamed⟩
      · rw [List.mem_singleton.mp hnew]
        exact ⟨r, List.mem_append_right _ List.mem_cons_self, hr, rfl, rfl⟩
    · intro r' hr' hfailed
      rw [List.map_append, List.mem_append]
      rcases List.mem_append.mp hr' with hold | hnew
      · exact .inl (h.all r' hold hfailed)
      · rw [List.mem_singleton.mp hnew]
        exact .inr List.mem_cons_self

theorem counted_failByMacro (runs : List RunRow) : Counted (failByMacro runs) runs := by
  induction runs using List.reverseRecOn with
  | nil => exact ⟨List.nodup_nil, nofun, nofun, nofun⟩
  | append_singleton runs r ih =>
    have hstep : failByMacro (runs ++ [r]) =
        if r.failed then countFailure (failByMacro runs) r else failByMacro runs := by
      rw [failByMacro, List.foldl_append]
      rfl
    rw [hstep]
    cases hr : r.failed with
    | false => exact ih.passed hr
    | true => exact ih.countFailure hr

/-- The summary names at most five macros, the ones with the most failures first, each once with
the number of its failures; a macro that failed and is not named failed no more often than any of
the five that are. -/
theorem topFailing_most (runs : List RunRow) :
    (topFailing runs).length ≤ 5 ∧
      ((topFailing runs).map (·.macroId)).Nodup ∧
      (topFailing runs).Pairwise (fun f g => g.count ≤ f.count) ∧
      (∀ f ∈ topFailing runs, f.count = failures runs f.macroId ∧
        ∃ r ∈ runs, r.failed = true ∧ r.macroId = f.macroId ∧ r.macroName = f.name) ∧
      ∀ r ∈ runs, r.failed = true → r.macroId ∉ (topFailing runs).map (·.macroId) →
        (topFailing runs).length = 5 ∧
          ∀ f ∈ topFailing runs, failures runs r.macroId ≤ f.count := by
  have hcounted := counted_failByMacro runs
  have hperm : ((failByMacro runs).mergeSort fun a b => b.count ≤ a.count).Perm
      (failByMacro runs) := List.mergeSort_perm ..
  have hsorted : ((failByMacro runs).mergeSort fun a b => b.count ≤ a.count).Pairwise
      (fun f g => g.count ≤ f.count) := by
    refine List.Pairwise.imp of_decide_eq_true (List.pairwise_mergeSort ?_ ?_ _)
    · intro a b c hab hbc
      have hba := of_decide_eq_true hab
      have hcb := of_decide_eq_true hbc
      exact decide_eq_true (hcb.trans hba)
    · intro a b
      simp only [Bool.or_eq_true, decide_eq_true_eq]
      omega
  unfold topFailing
  generalize (failByMacro runs).mergeSort (fun a b => b.count ≤ a.count) = sorted at *
  have hkeys : (sorted.map (·.macroId)).Nodup := (hperm.map _).nodup_iff.mpr hcounted.once
  have hsplit := hsorted
  rw [← List.take_append_drop 5 sorted, List.pairwise_append] at hsplit
  refine ⟨List.length_take_le 5 sorted, ?_, hsplit.1, ?_, ?_⟩
  · rw [List.map_take]
    exact hkeys.sublist (List.take_sublist ..)
  · intro f hf
    have hmem := hperm.mem_iff.mp (List.mem_of_mem_take hf)
    exact ⟨hcounted.count f hmem, hcounted.named f hmem⟩
  · intro r hr hfailed hunnamed
    obtain ⟨g, hg, hid⟩ := List.mem_map.mp (hcounted.all r hr hfailed)
    have hlater : g ∈ sorted.drop 5 := by
      have hboth := hperm.mem_iff.mpr hg
      rw [← List.take_append_drop 5 sorted] at hboth
      rcases List.mem_append.mp hboth with hnamed | hlater
      · exact absurd (List.mem_map.mpr ⟨g, hnamed, hid⟩) hunnamed
      · exact hlater
    have hlong : 5 < sorted.length := by
      have hpos := List.length_pos_of_mem hlater
      rw [List.length_drop] at hpos
      omega
    refine ⟨List.length_take_of_le (Nat.le_of_lt hlong), fun f hf => ?_⟩
    rw [← hid, ← hcounted.count g hg]
    exact hsplit.2.2 f hf g hlater

/-- The digit that a character of the month stands for; only ASCII digits match. -/
def digit? (c : Char) : Option Nat :=
  if 48 ≤ c.toNat ∧ c.toNat ≤ 57 then some (c.toNat - 48) else none

/-- The year and the index of the month, of a text that matches `YYYY-MM`. -/
def parseMonth : List Char → Option (Nat × Nat)
  | [a, b, c, d, '-', e, f] =>
    match digit? a, digit? b, digit? c, digit? d, digit? e, digit? f with
    | some a, some b, some c, some d, some e, some f =>
      let month := 10 * e + f
      if 1 ≤ month ∧ month ≤ 12 then some (1000 * a + 100 * b + 10 * c + d, month - 1) else none
    | _, _, _, _, _, _ => none
  | _ => none

def dayFromYear (y : Int) : Int :=
  365 * (y - 1970) + (y - 1969) / 4 - (y - 1901) / 100 + (y - 1601) / 400

def inLeapYear (y : Int) : Int := if y % 4 = 0 ∧ (y % 100 ≠ 0 ∨ y % 400 = 0) then 1 else 0

/-- The days of the year before its month. -/
def dayOfMonth (y month : Int) : Int :=
  if month = 0 then 0
  else if month = 1 then 31
  else inLeapYear y +
    if month = 2 then 59
    else if month = 3 then 90
    else if month = 4 then 120
    else if month = 5 then 151
    else if month = 6 then 181
    else if month = 7 then 212
    else if month = 8 then 243
    else if month = 9 then 273
    else if month = 10 then 304
    else 334

/-- `Date.UTC(year, month, 1)`: a year of one or two digits belongs to the twentieth century, and
the months behind December to the next year. -/
def dateUTC (year month : Int) : Int :=
  let full := if 0 ≤ year ∧ year ≤ 99 then 1900 + year else year
  (dayFromYear (full + month / 12) + dayOfMonth (full + month / 12) (month % 12)) * 86400000

/-- The rows of the query of a month. -/
def executiveRuns (year month : Nat) (rows : List RunRow) : List RunRow :=
  rows.filter fun r => dateUTC year month ≤ r.startedAt ∧ r.startedAt < dateUTC year (month + 1)

/-- The start of a month, by its number since the year 0. -/
def monthStart (n : Int) : Int :=
  (dayFromYear (n / 12) + dayOfMonth (n / 12) (n % 12)) * 86400000

theorem dayFromYear_succ (y : Int) : dayFromYear (y + 1) = dayFromYear y + 365 + inLeapYear y := by
  unfold dayFromYear inLeapYear
  split_ifs <;> omega

theorem inLeapYear_le (y : Int) : 0 ≤ inLeapYear y ∧ inLeapYear y ≤ 1 := by
  unfold inLeapYear
  split_ifs <;> omega

theorem dayOfMonth_lt (y : Int) {month : Int} (hlow : 0 ≤ month) (hhigh : month < 11) :
    dayOfMonth y month < dayOfMonth y (month + 1) := by
  have hleap := inLeapYear_le y
  obtain rfl | rfl | rfl | rfl | rfl | rfl | rfl | rfl | rfl | rfl | rfl :
      month = 0 ∨ month = 1 ∨ month = 2 ∨ month = 3 ∨ month = 4 ∨ month = 5 ∨ month = 6 ∨
        month = 7 ∨ month = 8 ∨ month = 9 ∨ month = 10 := by omega
  all_goals
    simp only [dayOfMonth]
    norm_num
    try omega

/-- Each month starts after the one before it. -/
theorem monthStart_lt (n : Int) : monthStart n < monthStart (n + 1) := by
  unfold monthStart
  by_cases hlast : n % 12 = 11
  · have hyear : (n + 1) / 12 = n / 12 + 1 := by omega
    have hmonth : (n + 1) % 12 = 0 := by omega
    have hdecember : dayOfMonth (n / 12) 11 = inLeapYear (n / 12) + 334 := rfl
    have hjanuary : dayOfMonth (n / 12 + 1) 0 = 0 := rfl
    rw [hyear, hmonth, hlast, dayFromYear_succ, hdecember, hjanuary]
    omega
  · have hyear : (n + 1) / 12 = n / 12 := by omega
    have hmonth : (n + 1) % 12 = n % 12 + 1 := by omega
    have hgrows := @dayOfMonth_lt (n / 12) (n % 12) (by omega) (by omega)
    rw [hyear, hmonth]
    omega

theorem dateUTC_eq {year : Int} (hyear : 100 ≤ year) (month : Int) :
    dateUTC year month = monthStart (12 * year + month) := by
  have hquot : (12 * year + month) / 12 = year + month / 12 := by omega
  have hrem : (12 * year + month) % 12 = month % 12 := by omega
  have hfull : ¬(0 ≤ year ∧ year ≤ 99) := by omega
  rw [dateUTC, monthStart, hquot, hrem]
  simp only [if_neg hfull]

theorem dateUTC_short {year : Int} (hlow : 0 ≤ year) (hhigh : year < 100) (month : Int) :
    dateUTC year month = dateUTC (1900 + year) month := by
  have hfull : 0 ≤ year ∧ year ≤ 99 := by omega
  have hlong : ¬(0 ≤ 1900 + year ∧ 1900 + year ≤ 99) := by omega
  rw [dateUTC, dateUTC]
  simp only [if_pos hfull, if_neg hlong]

theorem monthStart_lt_iff {a b : Int} : monthStart a < monthStart b ↔ a < b :=
  (strictMono_int_of_lt_succ monthStart_lt).lt_iff_lt

/-- Every moment between the starts of two months is in one month between them. -/
theorem exists_monthStart {t a b : Int} (ha : monthStart a ≤ t) (hb : t < monthStart b) :
    ∃ n, a ≤ n ∧ n < b ∧ monthStart n ≤ t ∧ t < monthStart (n + 1) := by
  have hbound : ∀ n, monthStart n ≤ t → n < b := fun n hn =>
    monthStart_lt_iff.mp (lt_of_le_of_lt hn hb)
  obtain ⟨n, hn, hmax⟩ := Int.exists_greatest_of_bdd
    ⟨b, fun n hn => le_of_lt (hbound n hn)⟩ ⟨a, ha⟩
  refine ⟨n, hmax a ha, hbound n hn, hn, ?_⟩
  by_contra hlate
  have := hmax (n + 1) (not_lt.mp hlate)
  omega

theorem month_unique {t n k : Int} (hn : monthStart n ≤ t ∧ t < monthStart (n + 1))
    (hk : monthStart k ≤ t ∧ t < monthStart (k + 1)) : n = k := by
  have hnk := monthStart_lt_iff.mp (lt_of_le_of_lt hn.1 hk.2)
  have hkn := monthStart_lt_iff.mp (lt_of_le_of_lt hk.1 hn.2)
  omega

def digitChar (d : Nat) : Char := Char.ofNat (48 + d)

theorem digit?_digitChar : ∀ d < 10, digit? (digitChar d) = some d := by decide

theorem eq_digitChar {c : Char} {d : Nat} (h : digit? c = some d) : d < 10 ∧ c = digitChar d := by
  unfold digit? at h
  split_ifs at h with hrange
  have hd : c.toNat - 48 = d := Option.some.inj h
  refine ⟨by omega, ?_⟩
  rw [digitChar, show 48 + d = c.toNat by omega, Char.ofNat_toNat]

/-- The text of a month. -/
def monthText (year monthIdx : Nat) : List Char :=
  [digitChar (year / 1000), digitChar (year / 100 % 10), digitChar (year / 10 % 10),
    digitChar (year % 10), '-', digitChar ((monthIdx + 1) / 10), digitChar ((monthIdx + 1) % 10)]

theorem parseMonth_monthText {year monthIdx : Nat} (hyear : year ≤ 9999) (hmonth : monthIdx < 12) :
    parseMonth (monthText year monthIdx) = some (year, monthIdx) := by
  have hyears : 1000 * (year / 1000) + 100 * (year / 100 % 10) + 10 * (year / 10 % 10) +
      year % 10 = year := by omega
  have hmonths : 10 * ((monthIdx + 1) / 10) + (monthIdx + 1) % 10 = monthIdx + 1 := by omega
  simp only [monthText, parseMonth, digit?_digitChar _ (show year / 1000 < 10 by omega),
    digit?_digitChar _ (Nat.mod_lt _ (show 0 < 10 by omega)),
    digit?_digitChar _ (show (monthIdx + 1) / 10 < 10 by omega), hyears, hmonths]
  rw [if_pos (by omega)]
  rfl

theorem eq_monthText {month : List Char} {year monthIdx : Nat}
    (h : parseMonth month = some (year, monthIdx)) :
    year ≤ 9999 ∧ monthIdx < 12 ∧ month = monthText year monthIdx := by
  unfold parseMonth at h
  split at h
  · rename_i a b c d e f
    split at h
    · rename_i na nb nc nd ne nf ha hb hc hd he hf
      obtain ⟨hna, rfl⟩ := eq_digitChar ha
      obtain ⟨hnb, rfl⟩ := eq_digitChar hb
      obtain ⟨hnc, rfl⟩ := eq_digitChar hc
      obtain ⟨hnd, rfl⟩ := eq_digitChar hd
      obtain ⟨hne, rfl⟩ := eq_digitChar he
      obtain ⟨hnf, rfl⟩ := eq_digitChar hf
      simp only at h
      split_ifs at h with hrange
      obtain ⟨rfl, rfl⟩ := Prod.mk.inj (Option.some.inj h)
      refine ⟨by omega, by omega, ?_⟩
      have ha : (1000 * na + 100 * nb + 10 * nc + nd) / 1000 = na := by omega
      have hb : (1000 * na + 100 * nb + 10 * nc + nd) / 100 % 10 = nb := by omega
      have hc : (1000 * na + 100 * nb + 10 * nc + nd) / 10 % 10 = nc := by omega
      have hd : (1000 * na + 100 * nb + 10 * nc + nd) % 10 = nd := by omega
      have hm : 10 * ne + nf - 1 + 1 = 10 * ne + nf := by omega
      have he : (10 * ne + nf) / 10 = ne := by omega
      have hf : (10 * ne + nf) % 10 = nf := by omega
      rw [monthText, ha, hb, hc, hd, hm, he, hf]
    · cases h
  · cases h

theorem mem_executiveRuns {rows : List RunRow} {r : RunRow} (hr : r ∈ rows) (year monthIdx : Nat) :
    r ∈ executiveRuns year monthIdx rows ↔
      dateUTC year monthIdx ≤ r.startedAt ∧ r.startedAt < dateUTC year (monthIdx + 1) := by
  simp [executiveRuns, hr]

theorem mem_executiveRuns_long {rows : List RunRow} {r : RunRow} (hr : r ∈ rows)
    {year monthIdx n : Nat} (hyear : 100 ≤ year)
    (hn : monthStart n ≤ r.startedAt ∧ r.startedAt < monthStart (n + 1)) :
    r ∈ executiveRuns year monthIdx rows ↔ 12 * year + monthIdx = n := by
  rw [mem_executiveRuns hr, dateUTC_eq (by omega), dateUTC_eq (by omega), ← Int.add_assoc]
  constructor
  · intro hin
    have heq := month_unique hin hn
    omega
  · intro heq
    have hcast : (12 * year + monthIdx : Int) = n := by omega
    rw [hcast]
    exact hn

/-- A run that started from the year 100 to the year 9999 is in the summary of one month, and of no
other text but where that month is of the twentieth century, whose summaries the years of two
digits repeat. -/
theorem one_summary {rows : List RunRow} {r : RunRow} (hr : r ∈ rows)
    (hfrom : dateUTC 100 0 ≤ r.startedAt) (hto : r.startedAt < dateUTC 10000 0) :
    ∃ year monthIdx : Nat, 100 ≤ year ∧
      (∃! month, parseMonth month = some (year, monthIdx)) ∧
      ∀ month y k, parseMonth month = some (y, k) →
        (r ∈ executiveRuns y k rows ↔ k = monthIdx ∧ (y = year ∨ y < 100 ∧ 1900 + y = year)) := by
  rw [dateUTC_eq (by omega)] at hfrom hto
  obtain ⟨n, hlow, hhigh, hin⟩ := exists_monthStart hfrom hto
  lift n to Nat using by omega
  refine ⟨n / 12, n % 12, by omega, ⟨monthText (n / 12) (n % 12),
    parseMonth_monthText (by omega) (by omega), ?_⟩, ?_⟩
  · intro month hmonth
    exact (eq_monthText hmonth).2.2
  · intro month y k hmonth
    obtain ⟨hy, hk, -⟩ := eq_monthText hmonth
    by_cases hshort : y < 100
    · have hsame : r ∈ executiveRuns y k rows ↔ r ∈ executiveRuns (1900 + y) k rows := by
        have hlong : ∀ m : Int, dateUTC y m = dateUTC (1900 + y : Nat) m := fun m => by
          rw [dateUTC_short (by omega) (by omega), Nat.cast_add, Nat.cast_ofNat]
        rw [mem_executiveRuns hr, mem_executiveRuns hr, hlong, hlong]
      rw [hsame, mem_executiveRuns_long hr (by omega) hin]
      omega
    · rw [mem_executiveRuns_long hr (by omega) hin]
      omega

theorem one_summary_leapDay :
    let r : RunRow := ⟨"m1", "withdraw", "FAILED", 1709164800000⟩
    ∃ year monthIdx : Nat, 100 ≤ year ∧
      (∃! month, parseMonth month = some (year, monthIdx)) ∧
      ∀ month y k, parseMonth month = some (y, k) →
        (r ∈ executiveRuns y k [r] ↔ k = monthIdx ∧ (y = year ∨ y < 100 ∧ 1900 + y = year)) :=
  one_summary List.mem_cons_self (by decide) (by decide)

end AtmXfs.Reports
