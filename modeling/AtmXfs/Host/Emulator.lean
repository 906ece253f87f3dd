import AtmXfs.Lib.JsNumber
import Mathlib.Algebra.BigOperators.Group.List.Basic
import Mathlib.Logic.Function.Basic

namespace AtmXfs.Host

open Js

inductive IsoSwitchId where
  | jalin | atmBersama | prima | bifast
  deriving DecidableEq

def IsoSwitchId.text : IsoSwitchId → String
  | jalin => "JALIN"
  | atmBersama => "ATM_BERSAMA"
  | prima => "PRIMA"
  | bifast => "BIFAST"

structure IsoSwitchProfile where
  id : IsoSwitchId
  name : String
  binPrefixes : List String
  maxWithdrawalIdr : Int
  deriving DecidableEq

def jalinProfile : IsoSwitchProfile :=
  ⟨.jalin, "Jalin", ["4097", "4339", "4567", "5436", "5520"], 5000000⟩

def atmBersamaProfile : IsoSwitchProfile :=
  ⟨.atmBersama, "ATM Bersama", ["4577", "4585", "4365"], 3000000⟩

def primaProfile : IsoSwitchProfile := ⟨.prima, "Prima", ["4263", "5264"], 5000000⟩

def bifastProfile : IsoSwitchProfile := ⟨.bifast, "BI-FAST", ["4368", "5263"], 250000000⟩

def allSwitchProfiles : List IsoSwitchProfile :=
  [jalinProfile, atmBersamaProfile, primaProfile, bifastProfile]

def getDefaultSwitch : IsoSwitchProfile := jalinProfile

def getSwitchByPan (pan : String) : IsoSwitchProfile :=
  if pan.length < 4 then getDefaultSwitch
  else
    match allSwitchProfiles.find? fun profile =>
        profile.binPrefixes.any fun bin => bin.toList.isPrefixOf pan.toList with
    | some profile => profile
    | none => getDefaultSwitch

def getSwitchById : IsoSwitchId → IsoSwitchProfile
  | .jalin => jalinProfile
  | .atmBersama => atmBersamaProfile
  | .prima => primaProfile
  | .bifast => bifastProfile

inductive AccountStatus where
  | active | blocked | closed
  deriving DecidableEq

inductive CardStatus where
  | active | blocked | expired | retained
  deriving DecidableEq

structure Account where
  balance : Int
  dailyLimit : Int
  dailyWithdrawn : Int
  status : AccountStatus
  deriving DecidableEq

structure VirtualCard where
  accountId : String
  expiryDate : String
  status : CardStatus
  deriving DecidableEq

inductive TxnType where
  | withdrawal | balance | transfer | deposit
  deriving DecidableEq

inductive TxnStatus where
  | pending | completed | failed | reversed
  deriving DecidableEq

structure Transaction where
  sessionId : String
  pan : String
  accountId : String
  txnType : TxnType
  amount : Int
  status : TxnStatus
  stanNo : Option String
  authCode : Option String
  responseCode : Option String
  errorReason : Option String
  createdAt : Int
  deriving DecidableEq

/-- The tables the host reads and writes; `transactions` in the order of insertion. -/
structure Db where
  accounts : String → Option Account
  cards : String → Option VirtualCard
  transactions : List Transaction

/-- The values a `bigint` column can hold. -/
def isInt8 (n : Int) : Bool := -(2 ^ 63) ≤ n ∧ n < 2 ^ 63

def startOfDay (now : Int) : Int := now - now % 86400000

def Transaction.isCompletedWithdrawal (row : Transaction) (accountId : String) : Bool :=
  row.accountId = accountId ∧ row.status = .completed ∧ row.txnType = .withdrawal

/-- The sum of the amounts of an account's COMPLETED WITHDRAWAL rows that satisfy `p`. -/
def completedSum (rows : List Transaction) (accountId : String) (p : Transaction → Bool) : Int :=
  ((rows.filter fun row => row.isCompletedWithdrawal accountId && p row).map Transaction.amount).sum

/-- The aggregate of the daily-limit check. -/
def dailyTotal (rows : List Transaction) (accountId : String) (start : Int) : Int :=
  completedSum rows accountId fun row => start ≤ row.createdAt

namespace Db

/-- `account.update` with `balance` and `dailyWithdrawn` moved in opposite directions. The
statement carries `sent`, the amount with the sign that the code gives it. -/
def moveBalance (db : Db) (accountId : String) (sent change : Int) : Option Db :=
  match db.accounts accountId with
  | none => none
  | some account =>
    if isInt8 sent ∧ isInt8 (account.balance + change) ∧
        isInt8 (account.dailyWithdrawn - change) then
      some { db with
        accounts := Function.update db.accounts accountId (some { account with
          balance := account.balance + change
          dailyWithdrawn := account.dailyWithdrawn - change }) }
    else none

/-- `balance: { decrement: amount }` and `dailyWithdrawn: { increment: amount }`. -/
def debit (db : Db) (accountId : String) (amount : Int) : Option Db :=
  db.moveBalance accountId amount (-amount)

/-- `balance: { increment: amount }` and `dailyWithdrawn: { decrement: amount }`. -/
def credit (db : Db) (accountId : String) (amount : Int) : Option Db :=
  db.moveBalance accountId amount amount

theorem moveBalance_isSome {db : Db} {accountId : String} {account : Account} {sent change : Int}
    (hfound : db.accounts accountId = some account) :
    (∃ moved, db.moveBalance accountId sent change = some moved) ↔
      isInt8 sent = true ∧ isInt8 (account.balance + change) = true ∧
        isInt8 (account.dailyWithdrawn - change) = true := by
  simp only [moveBalance, hfound]
  split_ifs with hrange <;> simp [hrange]

theorem debit_isSome {db : Db} {accountId : String} {account : Account} {amount : Int}
    (hfound : db.accounts accountId = some account) :
    (∃ moved, db.debit accountId amount = some moved) ↔
      isInt8 amount = true ∧ isInt8 (account.balance - amount) = true ∧
        isInt8 (account.dailyWithdrawn + amount) = true := by
  rw [debit, moveBalance_isSome hfound, ← sub_eq_add_neg, sub_neg_eq_add]

def create (db : Db) (row : Transaction) : Db :=
  { db with transactions := db.transactions ++ [row] }

end Db

/-- The UTC year and month of a time in milliseconds. -/
def utcYearMonth (now : Int) : Int × Int :=
  let z := now / 86400000 + 719468
  let era := z / 146097
  let dayOfEra := z - era * 146097
  let yearOfEra := (dayOfEra - dayOfEra / 1460 + dayOfEra / 36524 - dayOfEra / 146096) / 365
  let dayOfYear := dayOfEra - (365 * yearOfEra + yearOfEra / 4 - yearOfEra / 100)
  let march := (5 * dayOfYear + 2) / 153
  let month := if march < 10 then march + 3 else march - 9
  (yearOfEra + era * 400 + (if month ≤ 2 then 1 else 0), month)

/-- `expiryDate` is YYMM. -/
def isExpired (now : Int) (expiryDate : String) : Bool :=
  let digits := expiryDate.toList
  if ¬ (digits.length = 4 ∧ digits.all (isDigit 10)) then true
  else
    let year : Int := 2000 + digitsValue 10 (digits.take 2)
    let month : Int := digitsValue 10 (digits.drop 2)
    let (nowYear, nowMonth) := utcYearMonth now
    year < nowYear ∨ (year = nowYear ∧ month < nowMonth)

structure AuthResult where
  success : Bool
  accountId : Option String
  responseCode : String
  reason : Option String
  deriving DecidableEq

def authenticate (db : Db) (now : Int) (pan : String) : AuthResult :=
  match db.cards pan with
  | none => ⟨false, none, "14", some "card not found"⟩
  | some card =>
    if card.status = .blocked then ⟨false, none, "62", some "card blocked"⟩
    else if card.status = .retained then ⟨false, none, "36", some "card retained"⟩
    else if isExpired now card.expiryDate then ⟨false, none, "54", some "card expired"⟩
    else if (db.accounts card.accountId).any (·.status = .active) then
      ⟨true, some card.accountId, "00", none⟩
    else ⟨false, none, "56", some "account not active"⟩

structure WithdrawalParams where
  pan : String
  amount : Number
  sessionId : String
  switchProfile : Option IsoSwitchProfile

structure ReversalParams where
  stanNo : String
  sessionId : String
  pan : String
  accountId : String
  amount : Number
  reason : String

structure AuthorizationResult where
  approved : Bool
  responseCode : String
  authCode : Option String
  stanNo : String
  balanceAfter : Option Number
  reason : Option String
  switchId : IsoSwitchId
  switchName : String
  deriving DecidableEq

def declined (sw : IsoSwitchProfile) (stanNo code reason : String) : AuthorizationResult :=
  ⟨false, code, none, stanNo, none, some reason, sw.id, sw.name⟩

def withdrawalRow (p : WithdrawalParams) (accountId : String) (amount now : Int)
    (stanNo authCode : String) : Transaction :=
  ⟨p.sessionId, p.pan, accountId, .withdrawal, amount, .completed, some stanNo, some authCode,
    some "00", none, now⟩

/-- `alreadyWithdrawn + params.amount > dailyLimit`, in numbers. -/
def exceedsLimit (dailyLimit alreadyWithdrawn : Int) (amount : Number) : Bool :=
  (Number.ofBigInt dailyLimit).lt ((Number.ofBigInt alreadyWithdrawn).add amount)

def limitReason (dailyLimit alreadyWithdrawn : Int) : String :=
  "daily limit (" ++ bigIntText dailyLimit ++ ") exceeded; already withdrawn " ++
    bigIntText alreadyWithdrawn

/-- The body of the withdrawal's database transaction; `none` when it throws. -/
def authorizeTx (db : Db) (now : Int) (authCode stanNo : String) (sw : IsoSwitchProfile)
    (p : WithdrawalParams) : Option (AuthorizationResult × Db) :=
  match db.cards p.pan with
  | none => some (declined sw stanNo "14" "card not found", db)
  | some card =>
    match db.accounts card.accountId with
    | none => some (declined sw stanNo "14" "card not found", db)
    | some account =>
      if (Number.ofInt sw.maxWithdrawalIdr).lt p.amount then
        some (declined sw stanNo "61" (sw.name ++ " per-transaction cap (" ++
          toString sw.maxWithdrawalIdr ++ ") exceeded"), db)
      else
        -- the lock is taken here; alone, the call reads the same account again
        match db.accounts card.accountId with
        | none => some (declined sw stanNo "56" "account not found", db)
        | some locked =>
          if (Number.ofBigInt locked.balance).lt p.amount then
            some (declined sw stanNo "51" "insufficient funds", db)
          else if exceedsLimit account.dailyLimit
              (dailyTotal db.transactions card.accountId (startOfDay now)) p.amount then
            some (declined sw stanNo "61" (limitReason account.dailyLimit
              (dailyTotal db.transactions card.accountId (startOfDay now))), db)
          else
            match p.amount.toInt? with
            | none => none
            | some amount =>
              match db.debit card.accountId amount with
              | none => none
              | some db' =>
                some (⟨true, "00", some authCode, stanNo,
                  some (Number.ofBigInt (locked.balance - amount)), none, sw.id, sw.name⟩,
                  db'.create (withdrawalRow p card.accountId amount now stanNo authCode))

/-- The service: its tables and the counter that a restart sets back to 1. -/
structure HostEmulatorService where
  db : Db
  stanCounter : Nat

def padStart (width : Nat) (s : String) : String :=
  String.ofList (List.leftpad width '0' s.toList)

def formatStan (n : Nat) : String := padStart 6 (toString (n % 1000000))

def authorizeWithdrawal (h : HostEmulatorService) (now : Int) (authCode : String)
    (p : WithdrawalParams) : AuthorizationResult × HostEmulatorService :=
  let stanNo := formatStan h.stanCounter
  let sw := p.switchProfile.getD (getSwitchByPan p.pan)
  match authorizeTx h.db now authCode stanNo sw p with
  | some (r, db) => (r, ⟨db, h.stanCounter + 1⟩)
  | none => (declined sw stanNo "96" "host error", ⟨h.db, h.stanCounter + 1⟩)

/-- `updateMany` of a reversal: every COMPLETED row with the STAN, whatever its account. -/
def reverseRow (stanNo reason : String) (row : Transaction) : Transaction :=
  if row.stanNo = some stanNo ∧ row.status = .completed then
    { row with status := .reversed, errorReason := some reason }
  else row

def reversalRow (p : ReversalParams) (amount now : Int) : Transaction :=
  ⟨p.sessionId, p.pan, p.accountId, .withdrawal, amount, .reversed, some p.stanNo, none, none,
    some p.reason, now⟩

/-- The body of the reversal's database transaction; `none` when it throws. -/
def reverseTx (db : Db) (now : Int) (p : ReversalParams) : Option Db :=
  match p.amount.toInt? with
  | none => none
  | some amount =>
    match db.credit p.accountId amount with
    | none => none
    | some db' =>
      some ({ db' with
        transactions := db'.transactions.map (reverseRow p.stanNo p.reason) }.create
          (reversalRow p amount now))

def reverseTransaction (h : HostEmulatorService) (now : Int) (p : ReversalParams) :
    HostEmulatorService :=
  match reverseTx h.db now p with
  | some db => { h with db }
  | none => h

/-- The calls a history is made of, and a restart of the service between them. -/
inductive HostCall where
  | authorize (now : Int) (authCode : String) (p : WithdrawalParams)
  | reverse (now : Int) (p : ReversalParams)
  | restart

def hostStep (h : HostEmulatorService) : HostCall → Option HostEmulatorService
  | .authorize now authCode p => some (authorizeWithdrawal h now authCode p).2
  | .reverse now p => some (reverseTransaction h now p)
  | .restart => some { h with stanCounter := 1 }

/-- What an approved withdrawal has checked and done. -/
structure Approval (db : Db) (now : Int) (authCode stanNo : String) (sw : IsoSwitchProfile)
    (p : WithdrawalParams) (card : VirtualCard) (account : Account) (amount : Int) (moved : Db) :
    Prop where
  found : db.cards p.pan = some card
  owned : db.accounts card.accountId = some account
  whole : p.amount = .ofInt amount
  cap : amount ≤ sw.maxWithdrawalIdr
  funds : (Number.ofBigInt account.balance).lt (.ofInt amount) = false
  limit : exceedsLimit account.dailyLimit
    (dailyTotal db.transactions card.accountId (startOfDay now)) (.ofInt amount) = false
  paid : db.debit card.accountId amount = some moved

/-- A withdrawal is declined with the tables untouched, or approved with the account debited and
the row written. -/
theorem authorizeTx_cases {db db' : Db} {now : Int} {authCode stanNo : String}
    {sw : IsoSwitchProfile} {p : WithdrawalParams} {r : AuthorizationResult}
    (h : authorizeTx db now authCode stanNo sw p = some (r, db')) :
    (r.approved = false ∧ r.responseCode ≠ "00" ∧ db' = db) ∨
    (r.approved = true ∧ r.responseCode = "00" ∧ ∃ card account amount moved,
      Approval db now authCode stanNo sw p card account amount moved ∧
      db' = moved.create (withdrawalRow p card.accountId amount now stanNo authCode)) := by
  unfold authorizeTx at h
  split at h
  · cases h
    exact .inl ⟨rfl, by simp [declined], rfl⟩
  · next card hcard =>
    split at h
    · cases h
      exact .inl ⟨rfl, by simp [declined], rfl⟩
    · next account haccount =>
      split at h
      · cases h
        exact .inl ⟨rfl, by simp [declined], rfl⟩
      · next hcap =>
        split at h
        · next hlocked => cases hlocked
        · next locked hlocked =>
          cases hlocked
          split at h
          · cases h
            exact .inl ⟨rfl, by simp [declined], rfl⟩
          · next hfunds =>
            split at h
            · cases h
              exact .inl ⟨rfl, by simp [declined], rfl⟩
            · next hlimit =>
              split at h
              · cases h
              · next amount hamount =>
                split at h
                · cases h
                · next moved hmoved =>
                  cases h
                  have hnum := Number.toInt?_eq_some.mp hamount
                  rw [hnum] at hcap hfunds hlimit
                  rw [Number.lt_ofInt, decide_eq_true_eq, not_lt] at hcap
                  rw [Bool.not_eq_true] at hfunds hlimit
                  exact .inr ⟨rfl, rfl, card, account, amount, moved,
                    ⟨hcard, haccount, hnum, hcap, hfunds, hlimit, hmoved⟩, rfl⟩

theorem authorizeTx_of_approval {db moved : Db} {now : Int} {authCode stanNo : String}
    {sw : IsoSwitchProfile} {p : WithdrawalParams} {card : VirtualCard} {account : Account}
    {amount : Int} (h : Approval db now authCode stanNo sw p card account amount moved) :
    ∃ r, r.approved = true ∧ r.responseCode = "00" ∧
      authorizeTx db now authCode stanNo sw p =
        some (r, moved.create (withdrawalRow p card.accountId amount now stanNo authCode)) := by
  refine ⟨⟨true, "00", some authCode, stanNo, some (Number.ofBigInt (account.balance - amount)),
    none, sw.id, sw.name⟩, rfl, rfl, ?_⟩
  simp [authorizeTx, h.found, h.owned, h.whole, h.paid, not_lt.mpr h.cap, h.funds, h.limit]

theorem authorizeWithdrawal_cases (h : HostEmulatorService) (now : Int) (authCode : String)
    (p : WithdrawalParams) :
    ((authorizeWithdrawal h now authCode p).1.approved = false ∧
      (authorizeWithdrawal h now authCode p).1.responseCode ≠ "00" ∧
      (authorizeWithdrawal h now authCode p).2.db = h.db) ∨
    ((authorizeWithdrawal h now authCode p).1.approved = true ∧
      (authorizeWithdrawal h now authCode p).1.responseCode = "00" ∧
      ∃ card account amount moved,
        Approval h.db now authCode (formatStan h.stanCounter)
          (p.switchProfile.getD (getSwitchByPan p.pan)) p card account amount moved ∧
        (authorizeWithdrawal h now authCode p).2.db = moved.create (withdrawalRow p
          card.accountId amount now (formatStan h.stanCounter) authCode)) := by
  unfold authorizeWithdrawal
  simp only
  split
  · next r db htx =>
    rcases authorizeTx_cases htx with ⟨happ, hcode, hdb⟩ | ⟨happ, hcode, hrest⟩
    · exact .inl ⟨happ, hcode, hdb⟩
    · exact .inr ⟨happ, hcode, hrest⟩
  · exact .inl ⟨rfl, by simp [declined], rfl⟩

/-- A moved balance: the account is there, everything else is as before. -/
theorem moveBalance_spec {db moved : Db} {accountId : String} {sent change : Int}
    (h : db.moveBalance accountId sent change = some moved) :
    ∃ account, db.accounts accountId = some account ∧
      moved.accounts = Function.update db.accounts accountId (some { account with
        balance := account.balance + change
        dailyWithdrawn := account.dailyWithdrawn - change }) ∧
      moved.cards = db.cards ∧ moved.transactions = db.transactions := by
  unfold Db.moveBalance at h
  split at h
  · cases h
  · next account haccount =>
    split_ifs at h
    cases h
    exact ⟨account, haccount, rfl, rfl, rfl⟩

/-- What an accepted reversal does to the tables. -/
theorem reverseTx_spec {db db' : Db} {now : Int} {p : ReversalParams}
    (h : reverseTx db now p = some db') :
    ∃ amount moved, p.amount = .ofInt amount ∧ db.credit p.accountId amount = some moved ∧
      db'.accounts = moved.accounts ∧ db'.cards = db.cards ∧
      db'.transactions =
        db.transactions.map (reverseRow p.stanNo p.reason) ++ [reversalRow p amount now] := by
  unfold reverseTx at h
  split at h
  · cases h
  · next amount hamount =>
    split at h
    · cases h
    · next moved hmoved =>
      cases h
      obtain ⟨account, -, -, hcards, htxns⟩ := moveBalance_spec hmoved
      refine ⟨amount, moved, Number.toInt?_eq_some.mp hamount, hmoved, rfl, hcards, ?_⟩
      simp only [Db.create, htxns]

end AtmXfs.Host
