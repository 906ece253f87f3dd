import AtmXfs.Host.Ledger
import AtmXfs.Host.Reversal

namespace AtmXfs.Host

open Js

/-- What a database transaction has written and the others do not see before it commits. -/
structure Writes where
  account : Option (String × Account)
  marked : List Nat
  reason : String
  created : Option Transaction

def Writes.none : Writes := ⟨Option.none, [], "", Option.none⟩

def markReversed (reason : String) (row : Transaction) : Transaction :=
  { row with status := .reversed, errorReason := some reason }

/-- The rows with the ones at the given positions marked. -/
def markRows (marked : List Nat) (reason : String) (rows : List Transaction) : List Transaction :=
  rows.mapIdx fun n row => if n ∈ marked then markReversed reason row else row

def Db.commit (db : Db) (w : Writes) : Db where
  accounts := match w.account with
    | Option.none => db.accounts
    | some (id, account) => Function.update db.accounts id (some account)
  cards := db.cards
  transactions := markRows w.marked w.reason db.transactions ++ w.created.toList

/-- The row that `account.update` writes. -/
def Db.movedAccount (db : Db) (accountId : String) (sent change : Int) : Option Account :=
  (db.moveBalance accountId sent change).bind fun moved => moved.accounts accountId

structure WithdrawalCall where
  p : WithdrawalParams
  sw : IsoSwitchProfile
  stanNo : String
  authCode : String

/-- The statement a withdrawal sends next, with what it keeps of the ones before. -/
inductive WithdrawalStage where
  | findCard
  | takeLock (accountId : String) (account : Account)
  | findAccount (accountId : String) (account : Account)
  | aggregate (accountId : String) (account : Account)
  | update (accountId : String)
  | create (accountId : String) (amount : Int) (updated : Account)
  | finish (r : AuthorizationResult) (lock : Option String) (w : Writes)

inductive ReversalStage where
  | takeLock
  | update
  | findRows (amount : Int) (updated : Account)
  | markRows (amount : Int) (updated : Account) (found marked : List Nat)
  | create (amount : Int) (updated : Account) (marked : List Nat)
  | finish (w : Writes)

/-- One statement of a withdrawal and the code behind it; `none` when it throws. -/
def WithdrawalCall.next (c : WithdrawalCall) (db : Db) (now : Int) :
    WithdrawalStage → Option WithdrawalStage
  | .findCard =>
    match db.cards c.p.pan with
    | none => some (.finish (declined c.sw c.stanNo "14" "card not found") none .none)
    | some card =>
      match db.accounts card.accountId with
      | none => some (.finish (declined c.sw c.stanNo "14" "card not found") none .none)
      | some account =>
        if (Number.ofInt c.sw.maxWithdrawalIdr).lt c.p.amount then
          some (.finish (declined c.sw c.stanNo "61" (c.sw.name ++ " per-transaction cap (" ++
            toString c.sw.maxWithdrawalIdr ++ ") exceeded")) none .none)
        else some (.takeLock card.accountId account)
  | .takeLock accountId account => some (.findAccount accountId account)
  | .findAccount accountId account =>
    match db.accounts accountId with
    | none =>
      some (.finish (declined c.sw c.stanNo "56" "account not found") (some accountId) .none)
    | some locked =>
      if (Number.ofBigInt locked.balance).lt c.p.amount then
        some (.finish (declined c.sw c.stanNo "51" "insufficient funds") (some accountId) .none)
      else some (.aggregate accountId account)
  | .aggregate accountId account =>
    if exceedsLimit account.dailyLimit (dailyTotal db.transactions accountId (startOfDay now))
        c.p.amount then
      some (.finish (declined c.sw c.stanNo "61" (limitReason account.dailyLimit
        (dailyTotal db.transactions accountId (startOfDay now)))) (some accountId) .none)
    else some (.update accountId)
  | .update accountId =>
    match c.p.amount.toInt? with
    | none => none
    | some amount =>
      match db.movedAccount accountId amount (-amount) with
      | none => none
      | some updated => some (.create accountId amount updated)
  | .create accountId amount updated =>
    some (.finish ⟨true, "00", some c.authCode, c.stanNo, some (Number.ofBigInt updated.balance),
        none, c.sw.id, c.sw.name⟩ (some accountId)
      ⟨some (accountId, updated), [], "",
        some (withdrawalRow c.p accountId amount now c.stanNo c.authCode)⟩)
  | .finish r lock w => some (.finish r lock w)

/-- The positions of the rows that a condition on rows selects. -/
def Db.rowsWhere (db : Db) (p : Transaction → Bool) : List Nat :=
  (List.range db.transactions.length).filter fun n => db.transactions[n]?.any p

/-- One statement of a reversal. `updateMany` selects its rows first and takes them one after the
other: when no other transaction holds the row, it looks at it once more and marks it. -/
def reversalNext (p : ReversalParams) (db : Db) (now : Int) : ReversalStage → Option ReversalStage
  | .takeLock => some .update
  | .update =>
    match p.amount.toInt? with
    | none => none
    | some amount =>
      match db.movedAccount p.accountId amount amount with
      | none => none
      | some updated => some (.findRows amount updated)
  | .findRows amount updated =>
    some (.markRows amount updated (db.rowsWhere (reversible p.stanNo)) [])
  | .markRows amount updated [] marked => some (.create amount updated marked)
  | .markRows amount updated (n :: found) marked =>
    if db.transactions[n]?.any (reversible p.stanNo) then
      some (.markRows amount updated found (marked ++ [n]))
    else some (.markRows amount updated found marked)
  | .create amount updated marked =>
    some (.finish ⟨some (p.accountId, updated), marked, p.reason, some (reversalRow p amount now)⟩)
  | .finish w => some (.finish w)

/-- `updateMany` goes on to the next row, or it is through. -/
theorem reversalNext_markRows {p : ReversalParams} {db : Db} {now amount : Int} {updated : Account}
    {found marked : List Nat} {stage : ReversalStage}
    (h : reversalNext p db now (.markRows amount updated found marked) = some stage) :
    stage = .create amount updated marked ∨
      ∃ found' marked', stage = .markRows amount updated found' marked' := by
  cases found with
  | nil =>
    cases h
    exact .inl rfl
  | cons n found =>
    simp only [reversalNext] at h
    split_ifs at h <;> cases h <;> exact .inr ⟨_, _, rfl⟩

@[simp] theorem markRows_nil (reason : String) (rows : List Transaction) :
    markRows [] reason rows = rows := by
  apply List.ext_getElem?
  intro n
  simp [markRows]

@[simp] theorem commit_none (db : Db) : db.commit .none = db := by
  simp [Db.commit, Writes.none]

/-- A moved account row is the account of before, moved. -/
theorem movedAccount_eq_some {db : Db} {accountId : String} {sent change : Int}
    {updated : Account} : db.movedAccount accountId sent change = some updated ↔
      ∃ account moved, db.accounts accountId = some account ∧
        db.moveBalance accountId sent change = some moved ∧
        updated = { account with
          balance := account.balance + change
          dailyWithdrawn := account.dailyWithdrawn - change } := by
  unfold Db.movedAccount
  rw [Option.bind_eq_some_iff]
  constructor
  · intro ⟨moved, hmoved, hupdated⟩
    obtain ⟨account, haccount, haccounts, -, -⟩ := moveBalance_spec hmoved
    rw [haccounts, Function.update_self, Option.some.injEq] at hupdated
    exact ⟨account, moved, haccount, hmoved, hupdated.symm⟩
  · intro ⟨account, moved, haccount, hmoved, hupdated⟩
    obtain ⟨account', haccount', haccounts, -, -⟩ := moveBalance_spec hmoved
    cases haccount.symm.trans haccount'
    refine ⟨moved, hmoved, ?_⟩
    rw [haccounts, Function.update_self, hupdated]

theorem movedAccount_eq_none {db : Db} {accountId : String} {sent change : Int}
    (h : db.moveBalance accountId sent change = none) :
    db.movedAccount accountId sent change = none := by
  rw [Db.movedAccount, h, Option.bind_none]

/-- Committing a moved account row is moving the balance. -/
theorem commit_moved {db moved : Db} {accountId : String} {sent change : Int}
    {updated : Account} (marked : List Nat) (reason : String) (row : Transaction)
    (hupdated : db.movedAccount accountId sent change = some updated)
    (hmoved : db.moveBalance accountId sent change = some moved) :
    db.commit ⟨some (accountId, updated), marked, reason, some row⟩ =
      { moved with transactions := markRows marked reason moved.transactions }.create row := by
  obtain ⟨account, moved', haccount, hmoved', rfl⟩ := movedAccount_eq_some.mp hupdated
  cases hmoved.symm.trans hmoved'
  obtain ⟨account', haccount', haccounts, hcards, htxns⟩ := moveBalance_spec hmoved
  cases haccount.symm.trans haccount'
  simp only [Db.commit, Db.create, haccounts, hcards, htxns, Option.toList_some]

def WithdrawalCall.run (c : WithdrawalCall) (db : Db) (now : Int) :
    Nat → WithdrawalStage → Option WithdrawalStage
  | 0, stage => some stage
  | n + 1, stage => (c.next db now stage).bind (c.run db now n)

@[simp] def WithdrawalStage.outcome : WithdrawalStage → Option (AuthorizationResult × Writes)
  | .finish r _ w => some (r, w)
  | _ => none

/-- Alone, the statements of a withdrawal are the transaction of `authorizeTx`. -/
theorem run_authorizeTx (c : WithdrawalCall) (db : Db) (now : Int) :
    ((c.run db now 6 .findCard).bind WithdrawalStage.outcome).map
      (fun o => (o.1, db.commit o.2)) = authorizeTx db now c.authCode c.stanNo c.sw c.p := by
  simp only [WithdrawalCall.run]
  cases hcard : db.cards c.p.pan with
  | none => simp [WithdrawalCall.next, authorizeTx, hcard]
  | some card =>
    cases haccount : db.accounts card.accountId with
    | none => simp [WithdrawalCall.next, authorizeTx, hcard, haccount]
    | some account =>
      by_cases hcap : (Number.ofInt c.sw.maxWithdrawalIdr).lt c.p.amount = true
      · simp [WithdrawalCall.next, authorizeTx, hcard, haccount, hcap]
      by_cases hfunds : (Number.ofBigInt account.balance).lt c.p.amount = true
      · simp [WithdrawalCall.next, authorizeTx, hcard, haccount, hcap, hfunds]
      by_cases hlimit : exceedsLimit account.dailyLimit
          (dailyTotal db.transactions card.accountId (startOfDay now)) c.p.amount = true
      · simp [WithdrawalCall.next, authorizeTx, hcard, haccount, hcap, hfunds, hlimit]
      cases hamount : c.p.amount.toInt? with
      | none =>
        simp [WithdrawalCall.next, authorizeTx, hcard, haccount, hcap, hfunds, hlimit, hamount]
      | some amount =>
        cases hmoved : db.moveBalance card.accountId amount (-amount) with
        | none =>
          have hnone := movedAccount_eq_none hmoved
          simp [WithdrawalCall.next, authorizeTx, hcard, haccount, hcap, hfunds, hlimit, hamount,
            Db.debit, hmoved, hnone]
        | some moved =>
          have hupdated := movedAccount_eq_some.mpr ⟨account, moved, haccount, hmoved, rfl⟩
          have hcommit := commit_moved [] ""
            (withdrawalRow c.p card.accountId amount now c.stanNo c.authCode) hupdated hmoved
          simp only [sub_neg_eq_add, markRows_nil] at hupdated hcommit
          simp [WithdrawalCall.next, authorizeTx, hcard, haccount, hcap, hfunds, hlimit, hamount,
            Db.debit, hmoved, hupdated, hcommit, sub_eq_add_neg]

def reversalRun (p : ReversalParams) (db : Db) (now : Int) :
    Nat → ReversalStage → Option ReversalStage
  | 0, stage => some stage
  | n + 1, stage => (reversalNext p db now stage).bind (reversalRun p db now n)

@[simp] def ReversalStage.outcome : ReversalStage → Option Writes
  | .finish w => some w
  | _ => none

theorem markRows_reversible (db : Db) (stanNo reason : String) :
    markRows ((db.rowsWhere (reversible stanNo)).filter fun n =>
      db.transactions[n]?.any (reversible stanNo)) reason db.transactions =
        db.transactions.map (reverseRow stanNo reason) := by
  apply List.ext_getElem?
  intro n
  rw [markRows, List.getElem?_mapIdx, List.getElem?_map]
  cases hrow : db.transactions[n]? with
  | none => rfl
  | some row =>
    have hlt : n < db.transactions.length := (List.getElem?_eq_some_iff.mp hrow).1
    simp only [Option.map_some, Option.some.injEq]
    by_cases hrev : reversible stanNo row = true
    · have hboth : row.stanNo = some stanNo ∧ row.status = .completed := by
        simpa [reversible] using hrev
      have hmem : n ∈ (db.rowsWhere (reversible stanNo)).filter fun n =>
          db.transactions[n]?.any (reversible stanNo) := by
        rw [List.mem_filter, Db.rowsWhere, List.mem_filter, hrow]
        simp [hlt, hrev]
      rw [if_pos hmem, reverseRow, if_pos hboth]
      rfl
    · rw [if_neg (by simp [hrow, hrev]), reverseRow_of_not hrev]

/-- The rows are taken one after the other, and those that still answer to the condition are
marked. -/
theorem reversalRun_markRows (p : ReversalParams) (db : Db) (now amount : Int) (updated : Account)
    (found marked : List Nat) (k : Nat) :
    reversalRun p db now (found.length + k) (.markRows amount updated found marked) =
      reversalRun p db now k (.markRows amount updated [] (marked ++
        found.filter fun n => db.transactions[n]?.any (reversible p.stanNo))) := by
  induction found generalizing marked with
  | nil => simp
  | cons n found ih =>
    rw [List.length_cons, Nat.succ_add, reversalRun, reversalNext, List.filter_cons]
    split_ifs with hrev
    · rw [Option.bind_some, ih, List.append_assoc, List.singleton_append]
    · rw [Option.bind_some, ih]

/-- Alone, the statements of a reversal are the transaction of `reverseTx`: five, and one more for
every row that it selects. -/
theorem run_reverseTx (p : ReversalParams) (db : Db) (now : Int) :
    ((reversalRun p db now ((db.rowsWhere (reversible p.stanNo)).length + 5) .takeLock).bind
      ReversalStage.outcome).map db.commit = reverseTx db now p := by
  cases hamount : p.amount.toInt? with
  | none => simp [reversalRun, reversalNext, reverseTx, hamount]
  | some amount =>
    cases hmoved : db.moveBalance p.accountId amount amount with
    | none =>
      have hnone := movedAccount_eq_none hmoved
      simp [reversalRun, reversalNext, reverseTx, hamount, Db.credit, hmoved, hnone]
    | some moved =>
      obtain ⟨account, haccount, -, -, htxns⟩ := moveBalance_spec hmoved
      obtain ⟨updated, hupdated⟩ : ∃ updated,
          db.movedAccount p.accountId amount amount = some updated :=
        ⟨_, movedAccount_eq_some.mpr ⟨account, moved, haccount, hmoved, rfl⟩⟩
      have hcommit := commit_moved ((db.rowsWhere (reversible p.stanNo)).filter fun n =>
        db.transactions[n]?.any (reversible p.stanNo)) p.reason (reversalRow p amount now) hupdated
        hmoved
      rw [htxns, markRows_reversible] at hcommit
      have hupdate : reversalNext p db now .update = some (.findRows amount updated) := by
        simp only [reversalNext, hamount, hupdated]
      have hfind : reversalRun p db now ((db.rowsWhere (reversible p.stanNo)).length + 5)
          .takeLock = reversalRun p db now ((db.rowsWhere (reversible p.stanNo)).length + 2)
            (.markRows amount updated (db.rowsWhere (reversible p.stanNo)) []) := by
        rw [reversalRun, reversalNext, Option.bind_some, reversalRun, hupdate, Option.bind_some,
          reversalRun, reversalNext, Option.bind_some]
      rw [hfind, reversalRun_markRows]
      simp only [reversalRun, reversalNext, reverseTx, hamount, Db.credit, hmoved,
        List.nil_append, Option.bind_some, ReversalStage.outcome, Option.map_some, hcommit, htxns]

inductive Process where
  | withdrawal (c : WithdrawalCall) (stage : WithdrawalStage)
  | reversal (p : ReversalParams) (stage : ReversalStage)
  | ended (r : Option AuthorizationResult)

namespace Process

/-- The account whose advisory lock the transaction holds. -/
def held : Process → Option String
  | .withdrawal _ (.findAccount accountId _) => some accountId
  | .withdrawal _ (.aggregate accountId _) => some accountId
  | .withdrawal _ (.update accountId) => some accountId
  | .withdrawal _ (.create accountId _ _) => some accountId
  | .withdrawal _ (.finish _ lock _) => lock
  | .withdrawal _ _ => none
  | .reversal _ .takeLock => none
  | .reversal p _ => some p.accountId
  | .ended _ => none

def writes : Process → Writes
  | .withdrawal _ (.create accountId _ updated) => ⟨some (accountId, updated), [], "", none⟩
  | .withdrawal _ (.finish _ _ w) => w
  | .reversal p (.findRows _ updated) => ⟨some (p.accountId, updated), [], "", none⟩
  | .reversal p (.markRows _ updated _ marked) =>
    ⟨some (p.accountId, updated), marked, p.reason, none⟩
  | .reversal p (.create _ updated marked) => ⟨some (p.accountId, updated), marked, p.reason, none⟩
  | .reversal _ (.finish w) => w
  | _ => .none

def next (q : Process) (db : Db) (now : Int) : Process :=
  match q with
  | .withdrawal c stage => ((c.next db now stage).map (withdrawal c)).getD (ended none)
  | .reversal p stage => ((reversalNext p db now stage).map (reversal p)).getD (ended none)
  | .ended r => .ended r

/-- The transaction has sent its last statement. -/
def finished : Process → Option (Option AuthorizationResult)
  | .withdrawal _ (.finish r _ _) => some (some r)
  | .reversal _ (.finish _) => some none
  | _ => none

/-- The statement waits for a lock of the other transaction: the advisory lock, the row of the
account or the next row to be marked. -/
def waitsFor (lockKey : String → Nat) (q other : Process) : Bool :=
  match q with
  | .withdrawal _ (.takeLock accountId _) => other.held.map lockKey = some (lockKey accountId)
  | .reversal p .takeLock => other.held.map lockKey = some (lockKey p.accountId)
  | .withdrawal _ (.update accountId) => other.writes.account.map Prod.fst = some accountId
  | .reversal p .update => other.writes.account.map Prod.fst = some p.accountId
  | .reversal _ (.markRows _ _ (n :: _) _) => n ∈ other.writes.marked
  | _ => false

end Process

/-- The committed tables and the transactions that were begun. -/
structure Concurrent where
  db : Db
  processes : List Process

inductive ConcurrentStep where
  | beginWithdrawal (c : WithdrawalCall)
  | beginReversal (p : ReversalParams)
  | statement (i : Nat) (now : Int)
  | commit (i : Nat)
  | rollback (i : Nat)

def concurrentStep (lockKey : String → Nat) (s : Concurrent) : ConcurrentStep → Option Concurrent
  | .beginWithdrawal c =>
    some { s with processes := s.processes ++ [.withdrawal c .findCard] }
  | .beginReversal p => some { s with processes := s.processes ++ [.reversal p .takeLock] }
  | .statement i now =>
    match s.processes[i]? with
    | none => none
    | some q =>
      if (s.processes.eraseIdx i).any (q.waitsFor lockKey) then none
      else some { s with processes := s.processes.set i (q.next s.db now) }
  | .commit i =>
    match s.processes[i]? with
    | none => none
    | some q =>
      match q.finished with
      | none => none
      | some r => some ⟨s.db.commit q.writes, s.processes.set i (.ended r)⟩
  | .rollback i =>
    match s.processes[i]? with
    | none => none
    | some _ => some { s with processes := s.processes.set i (.ended none) }

end AtmXfs.Host
