import AtmXfs.Lib.Observers
import AtmXfs.Ptr.Device
import Mathlib.Data.List.Basic

namespace AtmXfs.Ptr

open Js

/-- What is done to the printer; the timer is that of a receipt to be taken. -/
inductive PtrAct where
  | execute (now : Instant) (c : PtrCommand)
  | replenishPaper
  | injectError (code : Int)
  | clearError
  | timer (receiptId : Text)

def ptrStep (s : PtrDeviceService) : PtrAct → Option PtrDeviceService
  | .execute now c => some (executeCommand s now c).2
  | .replenishPaper => some { s with paperLevel := paperCapacity }
  | .injectError code => some { s with injectedError := some code }
  | .clearError => some { s with injectedError := none }
  | .timer receiptId =>
    if receiptId ∈ s.taking then
      some { s with
        taking := s.taking.erase receiptId
        events := s.events ++ [.mediaTaken receiptId] }
    else none

/-- A sheet that a caller was told of, or a new roll. -/
inductive Sheet where
  | form (r : PrintedReceipt)
  | raw (r : PrintedReceipt)
  | roll

/-- What the answer to a command tells of the paper. -/
def answered (now : Instant) : PtrCommand → Except PtrError PtrResult → List Sheet
  | .printForm payload, .ok (.receipt receiptId) =>
    [.form ⟨receiptId, now.iso, some (.str (renderForm now payload))⟩]
  | .rawData data, .ok .printed => [.raw ⟨utf16 "RAW" ++ now.base36, now.iso, data⟩]
  | _, _ => []

def sheets (s : PtrDeviceService) : PtrAct → List Sheet
  | .execute now c => answered now c (executeCommand s now c).1
  | .replenishPaper => [.roll]
  | _ => []

/-- A journal kept from the answers alone: all that was printed, the forms among it, the sheets
used of this roll and the levels that called for a warning. -/
structure Tally where
  all : List PrintedReceipt
  forms : List Text
  used : Nat
  low : List Nat

namespace Tally

def empty : Tally := ⟨[], [], 0, []⟩

def count (t : Tally) : Sheet → Tally
  | .form r =>
    { all := t.all ++ [r]
      forms := t.forms ++ [r.receiptId]
      used := t.used + 1
      low := if paperCapacity - (t.used + 1) ≤ paperThreshold then
          t.low ++ [paperCapacity - (t.used + 1)]
        else t.low }
  | .raw r => { t with all := t.all ++ [r], used := t.used + 1 }
  | .roll => { t with used := 0 }

end Tally

@[simp] def PtrEvent.presented? : PtrEvent → Option Text
  | .mediaPresented receiptId _ => some receiptId
  | .mediaTaken _ => none
  | .paperThreshold _ => none

@[simp] def PtrEvent.taken? : PtrEvent → Option Text
  | .mediaTaken receiptId => some receiptId
  | .mediaPresented _ _ => none
  | .paperThreshold _ => none

@[simp] def PtrEvent.level? : PtrEvent → Option Nat
  | .paperThreshold level => some level
  | .mediaPresented _ _ => none
  | .mediaTaken _ => none

/-- The printer does what its answers tell: its history holds the last sheets, the paper that is
left is what was not used, every form has been presented and each is taken or waits to be, and
there was one warning for each form that left little paper. -/
structure Journaled (s : PtrDeviceService) (t : Tally) : Prop where
  history : s.history = t.all.drop (t.all.length - historyLimit)
  paper : s.paperLevel + t.used = paperCapacity
  presented : s.events.filterMap PtrEvent.presented? = t.forms
  taken : (s.events.filterMap PtrEvent.taken? ++ s.taking).Perm t.forms
  warned : s.events.filterMap PtrEvent.level? = t.low

theorem journaled_fresh : Journaled fresh .empty := ⟨rfl, rfl, rfl, .refl _, rfl⟩

/-- Recording keeps the last sheets. -/
theorem history_record {s : PtrDeviceService} {all : List PrintedReceipt}
    (h : s.history = all.drop (all.length - historyLimit)) (r : PrintedReceipt) :
    (record s r).history = (all ++ [r]).drop ((all ++ [r]).length - historyLimit) := by
  have hlength : s.history.length = min all.length historyLimit := by
    rw [h, List.length_drop]
    omega
  rw [record]
  simp only [List.length_append, List.length_singleton]
  rcases Nat.lt_or_ge all.length historyLimit with hshort | hlong
  · have hall : s.history = all := by
      rw [h, Nat.sub_eq_zero_of_le hshort.le, List.drop_zero]
    rw [if_neg (by omega), hall, Nat.sub_eq_zero_of_le (by omega), List.drop_zero]
  · have hnext : all.length + 1 - historyLimit = all.length - historyLimit + 1 := by omega
    rw [if_pos (by omega), hnext, ← List.tail_drop, List.drop_append_of_le_length (by omega), h]

theorem journaled_form {s : PtrDeviceService} {t : Tally} (h : Journaled s t)
    (hpaper : s.paperLevel ≠ 0) (now : Instant) (payload : PtrPrintFormPayload) :
    Journaled (printForm s now payload).2
      ((answered now (.printForm payload) (printForm s now payload).1).foldl .count t) := by
  have hlevel : paperCapacity - (t.used + 1) = s.paperLevel - 1 := by
    have hused := h.paper
    omega
  rw [printForm, if_neg hpaper]
  refine ⟨history_record h.history _, ?_, ?_, ?_, ?_⟩
  · have hused := h.paper
    simp only [answered, List.foldl_cons, List.foldl_nil, Tally.count]
    omega
  · simp only [answered, List.foldl_cons, List.foldl_nil, Tally.count, List.filterMap_append,
      h.presented]
    split_ifs <;> simp
  · simp only [answered, List.foldl_cons, List.foldl_nil, Tally.count, List.filterMap_append]
    have hmore := h.taken.append_right [utf16 "RCPT" ++ now.base36]
    split_ifs <;> simpa [List.filterMap_cons] using hmore
  · simp only [answered, List.foldl_cons, List.foldl_nil, Tally.count, List.filterMap_append,
      h.warned, hlevel]
    split_ifs <;> simp

theorem journaled_raw {s : PtrDeviceService} {t : Tally} (h : Journaled s t)
    (hpaper : s.paperLevel ≠ 0) (now : Instant) (data : Option Json) :
    Journaled (printRaw s now data).2
      ((answered now (.rawData data) (printRaw s now data).1).foldl .count t) := by
  rw [printRaw, if_neg hpaper]
  refine ⟨history_record h.history _, ?_, h.presented, h.taken, h.warned⟩
  have hused := h.paper
  simp only [answered, List.foldl_cons, List.foldl_nil, Tally.count]
  omega

theorem journaled_execute {s : PtrDeviceService} {t : Tally} (h : Journaled s t) (now : Instant)
    (c : PtrCommand) :
    Journaled (executeCommand s now c).2
      ((answered now c (executeCommand s now c).1).foldl .count t) := by
  have hkept : ∀ injectedError, Journaled { s with injectedError } t := fun _ =>
    ⟨h.history, h.paper, h.presented, h.taken, h.warned⟩
  cases hinjected : s.injectedError with
  | some code =>
    cases c with
    | reset => exact hkept none
    | _ =>
      rw [executeCommand_some hinjected now (by simp)]
      exact hkept none
  | none =>
    rw [executeCommand_none hinjected]
    cases c with
    | reset => exact h
    | printForm payload =>
      simp only [perform]
      by_cases hpaper : s.paperLevel = 0
      · rw [printForm, if_pos hpaper]
        exact h
      · exact journaled_form h hpaper now payload
    | rawData data =>
      simp only [perform]
      by_cases hpaper : s.paperLevel = 0
      · rw [printRaw, if_pos hpaper]
        exact h
      · exact journaled_raw h hpaper now data
    | cutPaper => exact h
    | other code => exact h

theorem journaled_step {s s' : PtrDeviceService} {t : Tally} {act : PtrAct} (h : Journaled s t)
    (hstep : ptrStep s act = some s') : Journaled s' ((sheets s act).foldl .count t) := by
  cases act with
  | execute now c =>
    cases hstep
    exact journaled_execute h now c
  | replenishPaper =>
    cases hstep
    exact ⟨h.history, rfl, h.presented, h.taken, h.warned⟩
  | injectError code =>
    cases hstep
    exact ⟨h.history, h.paper, h.presented, h.taken, h.warned⟩
  | clearError =>
    cases hstep
    exact ⟨h.history, h.paper, h.presented, h.taken, h.warned⟩
  | timer receiptId =>
    rw [ptrStep] at hstep
    split_ifs at hstep with hwaits
    cases hstep
    refine ⟨h.history, h.paper, ?_, ?_, ?_⟩
    · simpa [sheets, List.filterMap_cons] using h.presented
    · have hmove : (s.events.filterMap PtrEvent.taken? ++ [receiptId] ++
          s.taking.erase receiptId).Perm t.forms := by
        rw [List.append_assoc]
        exact ((List.perm_cons_erase hwaits).symm.append_left _).trans h.taken
      simpa [sheets, List.filterMap_cons] using hmove
    · simpa [sheets, List.filterMap_cons] using h.warned

/-- In every run of the printer its state and events are what the answers to its commands tell. -/
theorem journaled_of_run {acts : List PtrAct} {s : PtrDeviceService} {printed : List Sheet}
    (hrun : Runs.exec (Runs.logged ptrStep sheets) (fresh, []) acts = some (s, printed)) :
    Journaled s (printed.foldl .count .empty) :=
  Runs.observed_of_along Tally.count (R := Journaled)
    (fun _ _ _ _ hs _ hstep => journaled_step hs hstep) (s := (fresh, [])) journaled_fresh
    (Runs.along_free ptrStep fresh acts) hrun

/-- A receipt that is taken, and raw data after it. -/
def twoSheets : List PtrAct :=
  [.execute ⟨utf16 "A", [], []⟩ (.printForm ⟨utf16 "JOURNAL", []⟩), .timer (utf16 "RCPTA"),
   .execute ⟨utf16 "B", [], []⟩ (.rawData none)]

theorem journaled_of_twoSheets :
    ∃ s printed, Runs.exec (Runs.logged ptrStep sheets) (fresh, []) twoSheets = some (s, printed) ∧
      s.paperLevel = 998 ∧ Journaled s (printed.foldl .count .empty) := by
  have hrun : (Runs.exec (Runs.logged ptrStep sheets) (fresh, []) twoSheets).any (fun s =>
      s.1.paperLevel = 998) = true := by decide +kernel
  obtain ⟨⟨s, printed⟩, hs, hend⟩ := (Option.any_eq_true ..).mp hrun
  exact ⟨s, printed, hs, of_decide_eq_true hend, journaled_of_run hs⟩

end AtmXfs.Ptr
