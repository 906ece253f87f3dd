import AtmXfs.Host.Emulator
import AtmXfs.Lib.Runs
import Mathlib.Tactic.Ring

namespace AtmXfs.Host

open Js

/-- The sum of an account's COMPLETED WITHDRAWAL rows. -/
def completedTotal (db : Db) (accountId : String) : Int :=
  completedSum db.transactions accountId fun _ => true

/-- Balance plus completed withdrawals of an account. -/
def ledger (db : Db) (accountId : String) : Option Int :=
  (db.accounts accountId).map fun account => account.balance + completedTotal db accountId

/-- The sum of the rows of an account that a reversal of the STAN marks as REVERSED. -/
def flippedTotal (db : Db) (stanNo accountId : String) : Int :=
  completedSum db.transactions accountId fun row => row.stanNo = some stanNo

/-- The condition on the steps of a run: a reversal that is not rejected marks rows of its own
account worth exactly what it credits, and of other accounts rows worth nothing. -/
def MatchedReversal (h : HostEmulatorService) : HostCall → Prop
  | .reverse now p => (reverseTx h.db now p).isSome →
      p.amount = .ofInt (flippedTotal h.db p.stanNo p.accountId) ∧
      ∀ accountId, accountId ≠ p.accountId → (h.db.accounts accountId).isSome →
        flippedTotal h.db p.stanNo accountId = 0
  | _ => True

theorem completedSum_nil (accountId : String) (p : Transaction → Bool) :
    completedSum [] accountId p = 0 := rfl

theorem completedSum_cons (row : Transaction) (rows : List Transaction) (accountId : String)
    (p : Transaction → Bool) :
    completedSum (row :: rows) accountId p =
      (if row.isCompletedWithdrawal accountId && p row then row.amount else 0) +
        completedSum rows accountId p := by
  unfold completedSum
  rw [List.filter_cons]
  split <;> simp

theorem completedSum_append (rows rows' : List Transaction) (accountId : String)
    (p : Transaction → Bool) :
    completedSum (rows ++ rows') accountId p =
      completedSum rows accountId p + completedSum rows' accountId p := by
  simp [completedSum]

/-- A row that is not COMPLETED counts for nothing. -/
theorem isCompletedWithdrawal_of_status {row : Transaction} (accountId : String)
    (h : row.status ≠ .completed) : row.isCompletedWithdrawal accountId = false := by
  simp [Transaction.isCompletedWithdrawal, h]

theorem completedSum_reversed (rows : List Transaction) (stanNo reason accountId : String) :
    completedSum (rows.map (reverseRow stanNo reason)) accountId (fun _ => true) =
      completedSum rows accountId (fun _ => true) -
        completedSum rows accountId fun row => row.stanNo = some stanNo := by
  induction rows with
  | nil => rfl
  | cons row rows ih =>
    rw [List.map_cons, completedSum_cons, completedSum_cons, completedSum_cons, ih]
    by_cases hflip : row.stanNo = some stanNo ∧ row.status = .completed
    · have hrow : (reverseRow stanNo reason row).isCompletedWithdrawal accountId = false := by
        apply isCompletedWithdrawal_of_status
        simp [reverseRow, hflip]
      simp only [hrow, hflip.1, Bool.and_true, decide_true, Bool.false_eq_true,
        if_false]
      ring
    · have hrow : reverseRow stanNo reason row = row := if_neg hflip
      have hkept : (row.isCompletedWithdrawal accountId && decide (row.stanNo = some stanNo)) =
          false := by
        by_cases hstan : row.stanNo = some stanNo
        · have hstatus : row.status ≠ .completed := fun hs => hflip ⟨hstan, hs⟩
          simp [isCompletedWithdrawal_of_status accountId hstatus]
        · simp [hstan]
      rw [hrow, hkept]
      simp only [Bool.false_eq_true, if_false]
      ring

/-- A withdrawal keeps the ledger of every account. -/
theorem ledger_authorize (h : HostEmulatorService) (now : Int) (authCode : String)
    (p : WithdrawalParams) (accountId : String) :
    ledger (authorizeWithdrawal h now authCode p).2.db accountId = ledger h.db accountId := by
  rcases authorizeWithdrawal_cases h now authCode p with ⟨-, -, hdb⟩ |
    ⟨-, -, card, account, amount, moved, happ, hdb⟩
  · rw [hdb]
  · obtain ⟨account', haccount', haccounts, -, htxns⟩ := moveBalance_spec happ.paid
    obtain rfl : account = account' := Option.some.inj (happ.owned.symm.trans haccount')
    rw [hdb, ledger, completedTotal]
    simp only [Db.create, haccounts, htxns, completedSum_append, completedSum_cons,
      completedSum_nil]
    by_cases hid : accountId = card.accountId
    · have hrow : (withdrawalRow p card.accountId amount now (formatStan h.stanCounter)
          authCode).isCompletedWithdrawal accountId = true := by
        simp [withdrawalRow, Transaction.isCompletedWithdrawal, hid]
      rw [hrow, hid, Function.update_self, ledger, haccount', completedTotal]
      simp only [withdrawalRow, Option.map_some, Bool.and_true, if_true, Option.some.injEq]
      ring
    · have hrow : (withdrawalRow p card.accountId amount now (formatStan h.stanCounter)
          authCode).isCompletedWithdrawal accountId = false := by
        simp [withdrawalRow, Transaction.isCompletedWithdrawal, Ne.symm hid]
      rw [hrow, Function.update_of_ne hid, ledger, completedTotal]
      simp

/-- An accepted reversal adds its amount to its own account and takes the marked rows out of
every account. -/
theorem ledger_reverse {db db' : Db} {now : Int} {p : ReversalParams} {amount : Int}
    (h : reverseTx db now p = some db') (hamount : p.amount = .ofInt amount)
    (accountId : String) :
    ledger db' accountId = (ledger db accountId).map fun n =>
      n + (if accountId = p.accountId then amount else 0) -
        flippedTotal db p.stanNo accountId := by
  obtain ⟨amount', moved, hamount', hmoved, haccounts', -, htxns⟩ := reverseTx_spec h
  obtain rfl : amount = amount' := Number.ofInt_inj.mp (hamount.symm.trans hamount')
  obtain ⟨account, haccount, haccounts, -, -⟩ := moveBalance_spec hmoved
  have hrow : (reversalRow p amount now).isCompletedWithdrawal accountId = false :=
    isCompletedWithdrawal_of_status accountId (by simp [reversalRow])
  have htotal : completedTotal db' accountId =
      completedTotal db accountId - flippedTotal db p.stanNo accountId := by
    rw [completedTotal, htxns, completedSum_append, completedSum_reversed, completedSum_cons,
      completedSum_nil, hrow]
    simp [completedTotal, flippedTotal]
  rw [ledger, ledger, haccounts', haccounts, htotal, Option.map_map]
  by_cases hid : accountId = p.accountId
  · rw [hid, Function.update_self, haccount]
    simp only [Option.map_some, Function.comp_apply, if_true, Option.some.injEq]
    ring
  · rw [Function.update_of_ne hid]
    cases db.accounts accountId with
    | none => rfl
    | some account' =>
      simp only [Option.map_some, Function.comp_apply, if_neg hid, Option.some.injEq]
      ring

/-- A reversal keeps the ledger of every account exactly when it is matched. -/
theorem ledger_reverse_iff (h : HostEmulatorService) (now : Int) (p : ReversalParams) :
    (∀ accountId, ledger (reverseTransaction h now p).db accountId = ledger h.db accountId) ↔
      MatchedReversal h (.reverse now p) := by
  unfold reverseTransaction MatchedReversal
  cases hrev : reverseTx h.db now p with
  | none => simp [hrev]
  | some db' =>
    obtain ⟨amount, moved, hamount, hmoved, -, -, -⟩ := reverseTx_spec hrev
    obtain ⟨account, haccount, -, -, -⟩ := moveBalance_spec hmoved
    have hledger := ledger_reverse hrev hamount
    simp only [hrev, Option.isSome_some, true_imp_iff, hledger, hamount, Number.ofInt_inj]
    constructor
    · intro hsame
      constructor
      · have hown := hsame p.accountId
        rw [ledger, haccount, Option.map_some, Option.map_some, if_pos rfl,
          Option.some.injEq] at hown
        omega
      · intro accountId hid hsome
        obtain ⟨other, hother⟩ := Option.isSome_iff_exists.mp hsome
        have hkept := hsame accountId
        rw [ledger, hother, Option.map_some, Option.map_some, if_neg hid,
          Option.some.injEq] at hkept
        omega
    · rintro ⟨hown, hothers⟩ accountId
      rw [ledger]
      cases hacc : h.db.accounts accountId with
      | none => rfl
      | some other =>
        rw [Option.map_some, Option.map_some, Option.some.injEq]
        by_cases hid : accountId = p.accountId
        · rw [if_pos hid, hid]
          omega
        · have hzero := hothers accountId hid (by rw [hacc]; rfl)
          rw [if_neg hid]
          omega

/-- Over a run the ledger of every account stays constant if and only if every reversal that is
not rejected is matched. -/
theorem ledger_constant_iff (h : HostEmulatorService) (calls : List HostCall) :
    Runs.Always hostStep (fun h' => ∀ accountId, ledger h'.db accountId = ledger h.db accountId)
      h calls ↔ Runs.Along hostStep MatchedReversal h calls := by
  have hinv : ∀ (s : HostEmulatorService) (c : HostCall) (t : HostEmulatorService),
      True → hostStep s c = some t → True := fun _ _ _ _ _ => trivial
  apply Runs.always_iff_along _ hinv
  · intro s c t _ hs ht
    cases c with
    | authorize now authCode p =>
      cases ht
      exact iff_of_true (fun accountId => (ledger_authorize s now authCode p accountId).trans
        (hs accountId)) trivial
    | reverse now p =>
      cases ht
      rw [← ledger_reverse_iff]
      constructor
      · intro hconst accountId
        exact (hconst accountId).trans (hs accountId).symm
      · intro hkept accountId
        exact (hkept accountId).trans (hs accountId)
    | restart =>
      cases ht
      exact iff_of_true hs trivial
  · trivial
  · exact fun _ => rfl

/-- One account with 500000 and a card of it. -/
def oneAccount : HostEmulatorService where
  db :=
    { accounts := fun id => if id = "ACC" then some ⟨500000, 10000000, 0, .active⟩ else none
      cards := fun pan => if pan = "4580" then some ⟨"ACC", "3012", .active⟩ else none
      transactions := [] }
  stanCounter := 1

/-- A withdrawal of 100000 that is reversed twice leaves 100000 too much. -/
theorem ledger_not_constant :
    ¬ Runs.Always hostStep
      (fun h => ∀ accountId, ledger h.db accountId = ledger oneAccount.db accountId) oneAccount
      [.authorize 0 "123456" ⟨"4580", .ofInt 100000, "S1", none⟩,
       .reverse 0 ⟨"000001", "S1", "4580", "ACC", .ofInt 100000, "dispense failed"⟩,
       .reverse 0 ⟨"000001", "S1", "4580", "ACC", .ofInt 100000, "dispense failed"⟩] := by
  intro h
  have hlast := (((h.2 _ rfl).2 _ rfl).2 _ rfl) "ACC"
  revert hlast
  decide +kernel

end AtmXfs.Host
