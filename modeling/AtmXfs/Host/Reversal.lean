import AtmXfs.Host.Emulator
import AtmXfs.Lib.Runs

namespace AtmXfs.Host

open Js

/-- The rows that a step has changed, before and after. -/
def changedRows (db db' : Db) : List (Transaction × Transaction) :=
  (db.transactions.zip db'.transactions).filter fun e => e.1 ≠ e.2

/-- The reversal changes no row but one, that was authorised with its STAN for its account in its
session; it adds rows of that account and session only; other accounts are as before. -/
structure ReversesOnly (db db' : Db) (p : ReversalParams) : Prop where
  one : (changedRows db db').length ≤ 1
  own : ∀ e ∈ changedRows db db', e.1.stanNo = some p.stanNo ∧ e.1.accountId = p.accountId ∧
    e.1.sessionId = p.sessionId
  added : ∀ row ∈ db'.transactions.drop db.transactions.length,
    row.accountId = p.accountId ∧ row.sessionId = p.sessionId
  others : ∀ accountId, accountId ≠ p.accountId → db'.accounts accountId = db.accounts accountId

/-- The row is COMPLETED and has the STAN. -/
def reversible (stanNo : String) (row : Transaction) : Bool :=
  row.stanNo = some stanNo ∧ row.status = .completed

/-- The COMPLETED rows with the STAN: at most one, of the reversal's account and session. -/
def OwnRowOnly (db : Db) (p : ReversalParams) : Prop :=
  (db.transactions.filter (reversible p.stanNo)).length ≤ 1 ∧
    ∀ row ∈ db.transactions, reversible p.stanNo row = true →
      row.accountId = p.accountId ∧ row.sessionId = p.sessionId

theorem reverseRow_of_reversible {stanNo reason : String} {row : Transaction}
    (h : reversible stanNo row = true) : reverseRow stanNo reason row ≠ row := by
  intro heq
  have hboth : row.stanNo = some stanNo ∧ row.status = .completed := by simpa [reversible] using h
  have hstatus := congrArg Transaction.status heq
  rw [reverseRow, if_pos hboth, hboth.2] at hstatus
  cases hstatus

theorem reverseRow_of_not {stanNo reason : String} {row : Transaction}
    (h : ¬ reversible stanNo row = true) : reverseRow stanNo reason row = row := by
  apply if_neg
  simpa [reversible] using h

/-- The rows an accepted reversal changes are the COMPLETED rows with its STAN. -/
theorem changedRows_reverse {db db' : Db} {now : Int} {p : ReversalParams}
    (h : reverseTx db now p = some db') :
    changedRows db db' = (db.transactions.filter (reversible p.stanNo)).map
      fun row => (row, reverseRow p.stanNo p.reason row) := by
  obtain ⟨amount, moved, -, -, -, -, htxns⟩ := reverseTx_spec h
  have hzip : ∀ (rows rest : List Transaction),
      rows.zip (rows.map (reverseRow p.stanNo p.reason) ++ rest) =
        rows.map fun row => (row, reverseRow p.stanNo p.reason row) := by
    intro rows rest
    induction rows with
    | nil => simp
    | cons row rows ih => simp [ih]
  rw [changedRows, htxns, hzip, List.filter_map]
  congr 1
  apply List.filter_congr
  intro row _
  simp only [Function.comp_apply, ne_eq, decide_not]
  by_cases hrow : reversible p.stanNo row = true
  · simp [hrow, Ne.symm (reverseRow_of_reversible hrow)]
  · simp [hrow, reverseRow_of_not hrow]

/-- An accepted reversal reverses only its own withdrawal exactly when no other COMPLETED row has
its STAN. -/
theorem reversesOnly_accepted {db db' : Db} {now : Int} {p : ReversalParams}
    (h : reverseTx db now p = some db') : ReversesOnly db db' p ↔ OwnRowOnly db p := by
  have hchanged := changedRows_reverse h
  obtain ⟨amount, moved, -, hmoved, haccounts', -, htxns⟩ := reverseTx_spec h
  obtain ⟨account, -, haccounts, -, -⟩ := moveBalance_spec hmoved
  constructor
  · intro hr
    refine ⟨?_, ?_⟩
    · have hone := hr.one
      rw [hchanged, List.length_map] at hone
      exact hone
    · intro row hrow hrev
      have hmem : (row, reverseRow p.stanNo p.reason row) ∈ changedRows db db' := by
        rw [hchanged]
        exact List.mem_map_of_mem (List.mem_filter.mpr ⟨hrow, hrev⟩)
      exact (hr.own _ hmem).2
  · rintro ⟨hone, hown⟩
    refine ⟨?_, ?_, ?_, ?_⟩
    · rw [hchanged, List.length_map]
      exact hone
    · intro e he
      rw [hchanged] at he
      obtain ⟨row, hrow, rfl⟩ := List.mem_map.mp he
      obtain ⟨hmem, hrev⟩ := List.mem_filter.mp hrow
      have hstan : row.stanNo = some p.stanNo ∧ row.status = .completed := by
        simpa [reversible] using hrev
      exact ⟨hstan.1, hown row hmem hrev⟩
    · intro row hrow
      rw [htxns, List.drop_left' (List.length_map _), List.mem_singleton] at hrow
      rw [hrow]
      exact ⟨rfl, rfl⟩
    · intro accountId hid
      rw [haccounts', haccounts, Function.update_of_ne hid]

/-- A call reverses only its own withdrawal if and only if it is rejected, or no other COMPLETED
row has its STAN. -/
theorem reversesOnly_iff (h : HostEmulatorService) (now : Int) (p : ReversalParams) :
    ReversesOnly h.db (reverseTransaction h now p).db p ↔
      (reverseTx h.db now p = none ∨ OwnRowOnly h.db p) := by
  unfold reverseTransaction
  cases hrev : reverseTx h.db now p with
  | none =>
    have hsame : changedRows h.db h.db = [] := by
      rw [changedRows, List.filter_eq_nil_iff]
      intro e he
      have heq : e.1 = e.2 := by
        rw [List.zip_eq_zipWith, List.zipWith_self] at he
        obtain ⟨row, -, rfl⟩ := List.mem_map.mp he
        rfl
      simp [heq]
    refine iff_of_true ⟨?_, ?_, ?_, ?_⟩ (.inl rfl)
    · simp [hsame]
    · simp [hsame]
    · simp
    · exact fun _ _ => rfl
  | some db' =>
    rw [reversesOnly_accepted hrev]
    simp

/-- What is asked of the steps of a history. -/
def FramedReversal (h : HostEmulatorService) : HostCall → Prop
  | .reverse now p => ReversesOnly h.db (reverseTransaction h now p).db p
  | _ => True

/-- The condition on the steps of a history. -/
def OwnReversal (h : HostEmulatorService) : HostCall → Prop
  | .reverse now p => reverseTx h.db now p = none ∨ OwnRowOnly h.db p
  | _ => True

/-- In every history of withdrawals, reversals and restarts: each reversal reverses only its own
withdrawal if and only if each one is rejected or finds no other COMPLETED row with its STAN. -/
theorem reversals_framed_iff (h : HostEmulatorService) (calls : List HostCall) :
    Runs.Along hostStep FramedReversal h calls ↔ Runs.Along hostStep OwnReversal h calls := by
  apply Runs.along_congr
  intro h c
  cases c with
  | reverse now p => exact reversesOnly_iff h now p
  | authorize now authCode p => rfl
  | restart => rfl

/-- Two accounts with a card each. -/
def twoAccounts : HostEmulatorService where
  db :=
    { accounts := fun id =>
        if id = "A" ∨ id = "B" then some ⟨500000, 10000000, 0, .active⟩ else none
      cards := fun pan =>
        if pan = "4580" then some ⟨"A", "3012", .active⟩
        else if pan = "4581" then some ⟨"B", "3012", .active⟩ else none
      transactions := [] }
  stanCounter := 1

/-- After a restart the second customer gets the STAN of the first one; reversing the second
withdrawal marks the first one as well. -/
theorem reversals_not_framed :
    ¬ Runs.Along hostStep FramedReversal twoAccounts
      [.authorize 0 "123456" ⟨"4580", .ofInt 100000, "S1", none⟩, .restart,
       .authorize 0 "123456" ⟨"4581", .ofInt 100000, "S2", none⟩,
       .reverse 0 ⟨"000001", "S2", "4581", "B", .ofInt 100000, "dispense failed"⟩] := by
  intro h
  obtain ⟨-, h⟩ := h _ rfl
  obtain ⟨-, h⟩ := h _ rfl
  obtain ⟨-, h⟩ := h _ rfl
  obtain ⟨hframe, -⟩ := h _ rfl
  have hone := hframe.one
  revert hone
  decide +kernel

end AtmXfs.Host
