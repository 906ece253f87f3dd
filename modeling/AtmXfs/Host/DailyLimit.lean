import AtmXfs.Host.ReadCommitted

namespace AtmXfs.Host

open Js

/-- No account is overdrawn or has withdrawn more than its limit since `start`. -/
def WithinLimits (db : Db) (start : Int) : Prop :=
  ∀ accountId account, db.accounts accountId = some account →
    0 ≤ account.balance ∧ dailyTotal db.transactions accountId start ≤ account.dailyLimit

/-- Every limit is a safe integer of JavaScript. -/
def SafeLimits (db : Db) : Prop :=
  ∀ accountId account, db.accounts accountId = some account → account.dailyLimit < 2 ^ 53

/-- The amounts of the stored COMPLETED withdrawals are not negative. -/
def NonnegAmounts (db : Db) : Prop :=
  ∀ row ∈ db.transactions, row.status = .completed → row.txnType = .withdrawal → 0 ≤ row.amount

structure Sound (db : Db) (start : Int) : Prop where
  within : WithinLimits db start
  safe : SafeLimits db
  amounts : NonnegAmounts db

theorem completedSum_nonneg {rows : List Transaction} (accountId : String) (p : Transaction → Bool)
    (h : ∀ row ∈ rows, row.status = .completed → row.txnType = .withdrawal → 0 ≤ row.amount) :
    0 ≤ completedSum rows accountId p := by
  induction rows with
  | nil => exact le_rfl
  | cons row rows ih =>
    rw [completedSum_cons]
    have hrest := ih fun r hr => h r (List.mem_cons_of_mem row hr)
    split
    · next hrow =>
      have hcompleted : row.isCompletedWithdrawal accountId = true :=
        (Bool.and_eq_true_iff.mp hrow).1
      simp only [Transaction.isCompletedWithdrawal, decide_eq_true_eq] at hcompleted
      have hamount := h row List.mem_cons_self hcompleted.2.1 hcompleted.2.2
      omega
    · omega

/-- Marking rows takes withdrawals out of the sums. -/
theorem completedSum_mapIdx_le {rows : List Transaction} (f : Nat → Transaction → Transaction)
    (hf : ∀ n row, f n row = row ∨ (f n row).status = .reversed) (accountId : String)
    (p : Transaction → Bool)
    (h : ∀ row ∈ rows, row.status = .completed → row.txnType = .withdrawal → 0 ≤ row.amount) :
    completedSum (rows.mapIdx f) accountId p ≤ completedSum rows accountId p := by
  induction rows generalizing f with
  | nil => exact le_rfl
  | cons row rows ih =>
    rw [List.mapIdx_cons, completedSum_cons, completedSum_cons]
    have hrest := ih (fun n => f (n + 1)) (fun n => hf (n + 1))
      fun r hr => h r (List.mem_cons_of_mem row hr)
    rcases hf 0 row with hsame | hreversed
    · rw [hsame]
      omega
    · have hout : (f 0 row).isCompletedWithdrawal accountId = false :=
        isCompletedWithdrawal_of_status accountId (by simp [hreversed])
      have hrow : 0 ≤ completedSum [row] accountId p :=
        completedSum_nonneg accountId p fun r hr => h r (by simp_all)
      rw [completedSum_cons, completedSum_nil, add_zero] at hrow
      simp only [hout, Bool.false_and, Bool.false_eq_true, if_false]
      omega

theorem dailyTotal_markRows_le {db : Db} (h : NonnegAmounts db) (marked : List Nat)
    (reason accountId : String) (start : Int) :
    dailyTotal (markRows marked reason db.transactions) accountId start ≤
      dailyTotal db.transactions accountId start := by
  apply completedSum_mapIdx_le _ _ accountId _ h
  intro n row
  split
  · exact .inr rfl
  · exact .inl rfl

/-- With a safe limit the comparison in numbers is the comparison of the integers. -/
theorem within_of_exceedsLimit {limit total amount : Int} (h0 : 0 ≤ total) (htotal : total ≤ limit)
    (hsafe : limit < 2 ^ 53) (h : exceedsLimit limit total (.ofInt amount) = false) :
    total + amount ≤ limit := by
  by_contra hover
  have hnum : exceedsLimit limit total (.ofInt amount) = true := by
    unfold exceedsLimit Number.ofBigInt
    rw [roundDouble_intCast (abs_le.mpr ⟨by omega, by omega⟩),
      roundDouble_intCast (abs_le.mpr ⟨by omega, by omega⟩)]
    have hle : ((limit + 1 : Int) : ℚ) ≤ (total : ℚ) + amount := by
      exact_mod_cast (show limit + 1 ≤ total + amount by omega)
    exact lt_roundDouble (Int.lt_succ limit) (by omega) hle
      (lt_of_lt_of_le (by exact_mod_cast (show (0 : Int) < limit + 1 by omega)) hle)
  rw [h] at hnum
  cases hnum

theorem funds_of_not_lt {balance amount : Int} (h0 : 0 ≤ balance) (hamount : amount ≤ 2 ^ 53)
    (h : (Number.ofBigInt balance).lt (.ofInt amount) = false) : amount ≤ balance := by
  by_contra hover
  rw [Number.ofBigInt, roundDouble_intCast (abs_le.mpr ⟨by omega, by omega⟩), Number.lt_ofInt,
    decide_eq_false_iff_not] at h
  omega

/-- The account can still pay the amount and stays within its limit. -/
structure Granted (db : Db) (start : Int) (accountId : String) (amount : Int) (account : Account) :
    Prop where
  found : db.accounts accountId = some account
  funds : amount ≤ account.balance
  limit : dailyTotal db.transactions accountId start + amount ≤ account.dailyLimit

def Account.moved (account : Account) (amount : Int) : Account :=
  { account with
    balance := account.balance + amount
    dailyWithdrawn := account.dailyWithdrawn - amount }

@[simp] theorem Account.moved_balance (account : Account) (amount : Int) :
    (account.moved amount).balance = account.balance + amount := rfl

@[simp] theorem Account.moved_dailyLimit (account : Account) (amount : Int) :
    (account.moved amount).dailyLimit = account.dailyLimit := rfl

/-- The account is there and the transaction holding its lock has moved it by the amount. -/
def Moved (db : Db) (accountId : String) (amount : Int) (updated : Account) : Prop :=
  ∃ account, db.accounts accountId = some account ∧ updated = account.moved amount

/-- What a transaction at its end commits: nothing, an approved withdrawal or a reversal. -/
inductive Committing (db : Db) (start : Int) (held : Option String) : Writes → Prop
  | nothing : Committing db start held .none
  | debit {accountId : String} {amount : Int} {account : Account} {row : Transaction} :
      held = some accountId → 0 < amount → Granted db start accountId amount account →
      row.accountId = accountId → row.amount = amount →
      Committing db start held ⟨some (accountId, account.moved (-amount)), [], "", some row⟩
  | credit {accountId : String} {amount : Int} {account : Account} {marked : List Nat}
      {reason : String} {row : Transaction} :
      held = some accountId → 0 < amount → db.accounts accountId = some account →
      row.status = .reversed →
      Committing db start held ⟨some (accountId, account.moved amount), marked, reason, some row⟩

/-- The account keeps its limit. -/
def SameLimit (db : Db) (accountId : String) (account : Account) : Prop :=
  ∀ current, db.accounts accountId = some current → current.dailyLimit = account.dailyLimit

/-- What a transaction may rely on between two of its statements. -/
def Process.Ok (db : Db) (start : Int) : Process → Prop
  | .withdrawal c stage => ∃ amount, c.p.amount = .ofInt amount ∧ 0 < amount ∧
    match stage with
    | .findCard => True
    | .takeLock accountId account => SameLimit db accountId account
    | .findAccount accountId account => SameLimit db accountId account
    | .aggregate accountId account => SameLimit db accountId account ∧
      ∃ locked, db.accounts accountId = some locked ∧
        (Number.ofBigInt locked.balance).lt (.ofInt amount) = false
    | .update accountId => ∃ account, Granted db start accountId amount account
    | .create accountId n updated => n = amount ∧ ∃ account,
      Granted db start accountId amount account ∧ updated = account.moved (-amount)
    | .finish _ lock w => Committing db start lock w
  | .reversal p stage => ∃ amount, p.amount = .ofInt amount ∧ 0 < amount ∧
    match stage with
    | .takeLock => True
    | .update => True
    | .findRows _ updated => Moved db p.accountId amount updated
    | .markRows _ updated _ _ => Moved db p.accountId amount updated
    | .create _ updated _ => Moved db p.accountId amount updated
    | .finish w => Committing db start (some p.accountId) w
  | .ended _ => True

/-- The commit of another transaction has left the account alone. -/
structure Undisturbed (db db' : Db) (start : Int) (accountId : String) : Prop where
  account : db'.accounts accountId = db.accounts accountId
  total : dailyTotal db'.transactions accountId start ≤ dailyTotal db.transactions accountId start

def LimitsKept (db db' : Db) : Prop :=
  ∀ accountId account', db'.accounts accountId = some account' →
    ∃ account, db.accounts accountId = some account ∧ account.dailyLimit = account'.dailyLimit

theorem completedSum_single_le {row : Transaction} (h : 0 ≤ row.amount) (accountId : String)
    (p : Transaction → Bool) : completedSum [row] accountId p ≤ row.amount := by
  rw [completedSum_cons, completedSum_nil]
  split <;> omega

theorem completedSum_single_zero {row : Transaction} {accountId : String}
    (h : row.isCompletedWithdrawal accountId = false) (p : Transaction → Bool) :
    completedSum [row] accountId p = 0 := by
  rw [completedSum_cons, completedSum_nil, h]
  rfl

theorem mem_markRows {marked : List Nat} {reason : String} {rows : List Transaction}
    {row : Transaction} (h : row ∈ markRows marked reason rows) :
    row ∈ rows ∨ row.status = .reversed := by
  obtain ⟨n, hn, hrow⟩ := List.mem_mapIdx.mp h
  split at hrow
  · exact .inr (by rw [← hrow]; rfl)
  · exact .inl (hrow ▸ List.getElem_mem hn)

theorem dailyTotal_commit_le {db : Db} (h : NonnegAmounts db) (w : Writes) (accountId : String)
    (start : Int) :
    dailyTotal (db.commit w).transactions accountId start ≤
      dailyTotal db.transactions accountId start +
        dailyTotal w.created.toList accountId start := by
  have hmarked := dailyTotal_markRows_le h w.marked w.reason accountId start
  simp only [Db.commit, dailyTotal] at hmarked ⊢
  rw [completedSum_append]
  omega

theorem nonnegAmounts_commit {db : Db} (h : NonnegAmounts db) {w : Writes}
    (hw : ∀ row ∈ w.created, row.status = .completed → 0 ≤ row.amount) :
    NonnegAmounts (db.commit w) := by
  intro row hrow hstatus htype
  rcases List.mem_append.mp hrow with hold | hnew
  · rcases mem_markRows hold with hin | hreversed
    · exact h row hin hstatus htype
    · rw [hreversed] at hstatus
      cases hstatus
  · exact hw row (Option.mem_toList.mp hnew) hstatus

/-- A commit moves at most the balance of one account. -/
theorem commit_account {db : Db} {start : Int} {held : Option String} {w : Writes}
    (h : Committing db start held w) {id : String} {account' : Account}
    (hfound : (db.commit w).accounts id = some account') :
    db.accounts id = some account' ∨
      ∃ account amount, db.accounts id = some account ∧ account' = account.moved amount := by
  have hmoved : ∀ accountId account amount, db.accounts accountId = some account →
      Function.update db.accounts accountId (some (account.moved amount)) id = some account' →
      db.accounts id = some account' ∨
        ∃ account amount, db.accounts id = some account ∧ account' = account.moved amount := by
    intro accountId account amount hold hupdated
    by_cases heq : id = accountId
    · subst heq
      rw [Function.update_self, Option.some.injEq] at hupdated
      exact Or.inr ⟨account, amount, hold, hupdated.symm⟩
    · rw [Function.update_of_ne heq] at hupdated
      exact Or.inl hupdated
  cases h with
  | nothing => exact Or.inl (by rwa [commit_none] at hfound)
  | debit hheld hpos hgranted howner hamount => exact hmoved _ _ _ hgranted.found hfound
  | credit hheld hpos hold hstatus => exact hmoved _ _ _ hold hfound

theorem commit_limitsKept {db : Db} {start : Int} {held : Option String} {w : Writes}
    (h : Committing db start held w) : LimitsKept db (db.commit w) := by
  intro id account' hfound
  rcases commit_account h hfound with hkept | ⟨account, amount, hold, hmoved⟩
  · exact ⟨account', hkept, rfl⟩
  · exact ⟨account, hold, by rw [hmoved, Account.moved_dailyLimit]⟩

/-- A commit leaves the accounts alone whose lock the transaction does not hold. -/
theorem commit_undisturbed {db : Db} {start : Int} {held : Option String} {w : Writes}
    (h : Committing db start held w) (hs : NonnegAmounts db) {id : String}
    (hne : held ≠ some id) : Undisturbed db (db.commit w) start id := by
  have hle := dailyTotal_commit_le hs w id start
  cases h with
  | nothing => exact ⟨by rw [commit_none], by rw [commit_none]⟩
  | @debit accountId amount account row hheld hpos hgranted howner hamount =>
    have hid : id ≠ accountId := fun heq => hne (heq ▸ hheld)
    have hother : row.isCompletedWithdrawal id = false := by
      simp [Transaction.isCompletedWithdrawal, howner, hid.symm]
    have hzero : dailyTotal [row] id start = 0 := completedSum_single_zero hother _
    refine ⟨Function.update_of_ne hid _ _, ?_⟩
    rw [Option.toList_some, hzero] at hle
    omega
  | @credit accountId amount account marked reason row hheld hpos hold hstatus =>
    have hid : id ≠ accountId := fun heq => hne (heq ▸ hheld)
    have hout : row.isCompletedWithdrawal id = false :=
      isCompletedWithdrawal_of_status id (by simp [hstatus])
    have hzero : dailyTotal [row] id start = 0 := completedSum_single_zero hout _
    refine ⟨Function.update_of_ne hid _ _, ?_⟩
    rw [Option.toList_some, hzero] at hle
    omega

theorem within_moved {db : Db} {id : String} (account : Account) (amount : Int)
    {account' : Account} {total : Int}
    (hmoved : db.accounts id = some (account.moved amount))
    (hfound : db.accounts id = some account') (hbalance : 0 ≤ account.balance + amount)
    (htotal : total ≤ account.dailyLimit) : 0 ≤ account'.balance ∧ total ≤ account'.dailyLimit := by
  rw [hmoved, Option.some.injEq] at hfound
  rw [← hfound, Account.moved_balance, Account.moved_dailyLimit]
  exact ⟨hbalance, htotal⟩

theorem commit_sound {db : Db} {start : Int} {held : Option String} {w : Writes}
    (h : Committing db start held w) (hs : Sound db start) : Sound (db.commit w) start := by
  have hkept := commit_limitsKept h
  have hsafe : SafeLimits (db.commit w) := by
    intro id account' hfound
    obtain ⟨account, hold, hlimit⟩ := hkept id account' hfound
    rw [← hlimit]
    exact hs.safe id account hold
  have hother : ∀ id account', held ≠ some id → (db.commit w).accounts id = some account' →
      0 ≤ account'.balance ∧
        dailyTotal (db.commit w).transactions id start ≤ account'.dailyLimit := by
    intro id account' hne hfound
    obtain ⟨haccount, htotal⟩ := commit_undisturbed h hs.amounts hne
    rw [haccount] at hfound
    obtain ⟨hbalance, hlimit⟩ := hs.within id account' hfound
    exact ⟨hbalance, htotal.trans hlimit⟩
  have hle : ∀ id, _ := fun id => dailyTotal_commit_le hs.amounts w id start
  cases h with
  | nothing => rwa [commit_none]
  | @debit accountId amount account row hheld hpos hgranted howner hamount =>
    refine ⟨?_, hsafe, ?_⟩
    · intro id account' hfound
      by_cases heq : id = accountId
      · subst heq
        have hadded : dailyTotal [row] id start ≤ row.amount :=
          completedSum_single_le (by omega) id _
        have htotal := hle id
        have hfunds := hgranted.funds
        have hlimit := hgranted.limit
        rw [Option.toList_some] at htotal
        exact within_moved account (-amount) (by simp [Db.commit]) hfound (by omega) (by omega)
      · exact hother id account' (by rw [hheld]; simpa using Ne.symm heq) hfound
    · apply nonnegAmounts_commit hs.amounts
      intro r hr _
      cases Option.mem_some_iff.mp hr
      omega
  | @credit accountId amount account marked reason row hheld hpos hold hstatus =>
    refine ⟨?_, hsafe, ?_⟩
    · intro id account' hfound
      by_cases heq : id = accountId
      · subst heq
        have hout : row.isCompletedWithdrawal id = false :=
          isCompletedWithdrawal_of_status id (by simp [hstatus])
        have hadded : dailyTotal [row] id start = 0 := completedSum_single_zero hout _
        have htotal := hle id
        obtain ⟨hbalance, hlimit⟩ := hs.within id account hold
        rw [Option.toList_some] at htotal
        exact within_moved account amount (by simp [Db.commit]) hfound (by omega) (by omega)
      · exact hother id account' (by rw [hheld]; simpa using Ne.symm heq) hfound
    · apply nonnegAmounts_commit hs.amounts
      intro r hr hcompleted
      cases Option.mem_some_iff.mp hr
      rw [hstatus] at hcompleted
      cases hcompleted

theorem Granted.mono {db db' : Db} {start : Int} {accountId : String} {amount : Int}
    {account : Account} (h : Granted db start accountId amount account)
    (hsame : Undisturbed db db' start accountId) : Granted db' start accountId amount account := by
  have htotal := hsame.total
  have hlimit := h.limit
  exact ⟨by rw [hsame.account, h.found], h.funds, by omega⟩

theorem Moved.mono {db db' : Db} {start : Int} {accountId : String} {amount : Int}
    {updated : Account} (h : Moved db accountId amount updated)
    (hsame : Undisturbed db db' start accountId) : Moved db' accountId amount updated := by
  obtain ⟨account, hfound, hupdated⟩ := h
  exact ⟨account, by rw [hsame.account, hfound], hupdated⟩

theorem Committing.mono {db db' : Db} {start : Int} {held : Option String} {w : Writes}
    (h : Committing db start held w)
    (hsame : ∀ accountId, held = some accountId → Undisturbed db db' start accountId) :
    Committing db' start held w := by
  cases h with
  | nothing => exact .nothing
  | debit hheld hpos hgranted howner hamount =>
    exact .debit hheld hpos (hgranted.mono (hsame _ hheld)) howner hamount
  | credit hheld hpos hold hstatus =>
    exact .credit hheld hpos (by rw [(hsame _ hheld).account, hold]) hstatus

theorem SameLimit.mono {db db' : Db} {accountId : String} {account : Account}
    (h : SameLimit db accountId account) (hkept : LimitsKept db db') :
    SameLimit db' accountId account := by
  intro current hcurrent
  obtain ⟨old, hold, hlimit⟩ := hkept accountId current hcurrent
  rw [← hlimit]
  exact h old hold

/-- The commit of a transaction that does not hold its lock disturbs no other transaction. -/
theorem Process.Ok.mono {db db' : Db} {start : Int} {q : Process} (h : q.Ok db start)
    (hkept : LimitsKept db db')
    (hsame : ∀ accountId, q.held = some accountId → Undisturbed db db' start accountId) :
    q.Ok db' start := by
  cases q with
  | ended r => trivial
  | withdrawal c stage =>
    obtain ⟨amount, hamount, hpos, hstage⟩ := h
    refine ⟨amount, hamount, hpos, ?_⟩
    cases stage with
    | findCard => trivial
    | takeLock accountId account => exact hstage.mono hkept
    | findAccount accountId account => exact hstage.mono hkept
    | aggregate accountId account =>
      obtain ⟨hlimit, locked, hlocked, hfunds⟩ := hstage
      exact ⟨hlimit.mono hkept, locked, by rw [(hsame accountId rfl).account, hlocked], hfunds⟩
    | update accountId =>
      obtain ⟨account, hgranted⟩ := hstage
      exact ⟨account, hgranted.mono (hsame accountId rfl)⟩
    | create accountId n updated =>
      obtain ⟨hn, account, hgranted, hupdated⟩ := hstage
      exact ⟨hn, account, hgranted.mono (hsame accountId rfl), hupdated⟩
    | finish r lock w => exact hstage.mono hsame
  | reversal p stage =>
    obtain ⟨amount, hamount, hpos, hstage⟩ := h
    refine ⟨amount, hamount, hpos, ?_⟩
    cases stage with
    | takeLock => trivial
    | update => trivial
    | findRows n updated => exact hstage.mono (hsame p.accountId rfl)
    | markRows n updated found marked => exact hstage.mono (hsame p.accountId rfl)
    | create n updated marked => exact hstage.mono (hsame p.accountId rfl)
    | finish w => exact hstage.mono hsame

theorem withdrawal_next_ok {c : WithdrawalCall} {stage : WithdrawalStage} {db : Db}
    {start now : Int} (h : (Process.withdrawal c stage).Ok db start) (hs : Sound db start)
    (hday : startOfDay now = start) :
    ((Process.withdrawal c stage).next db now).Ok db start := by
  obtain ⟨amount, hamount, hpos, hstage⟩ := h
  simp only [Process.next]
  cases hnext : c.next db now stage with
  | none => trivial
  | some stage' =>
    refine ⟨amount, hamount, hpos, ?_⟩
    cases stage with
    | findCard =>
      simp only [WithdrawalCall.next] at hnext
      split at hnext
      · cases hnext
        exact .nothing
      · split at hnext
        · cases hnext
          exact .nothing
        · next account haccount =>
          split at hnext
          · cases hnext
            exact .nothing
          · cases hnext
            intro current hcurrent
            cases haccount.symm.trans hcurrent
            rfl
    | takeLock accountId account =>
      cases hnext
      exact hstage
    | findAccount accountId account =>
      simp only [WithdrawalCall.next] at hnext
      split at hnext
      · cases hnext
        exact .nothing
      · next locked hlocked =>
        split at hnext
        · cases hnext
          exact .nothing
        · next hfunds =>
          cases hnext
          rw [hamount, Bool.not_eq_true] at hfunds
          exact ⟨hstage, locked, hlocked, hfunds⟩
    | aggregate accountId account =>
      simp only [WithdrawalCall.next] at hnext
      split at hnext
      · cases hnext
        exact .nothing
      · next hlimit =>
        cases hnext
        obtain ⟨hsame, locked, hlocked, hfunds⟩ := hstage
        rw [hday, hamount, Bool.not_eq_true, ← hsame locked hlocked] at hlimit
        obtain ⟨hbalance, htotal⟩ := hs.within accountId locked hlocked
        have hsafe := hs.safe accountId locked hlocked
        have hnonneg : 0 ≤ dailyTotal db.transactions accountId start :=
          completedSum_nonneg accountId _ hs.amounts
        have hroom := within_of_exceedsLimit hnonneg htotal hsafe hlimit
        exact ⟨locked, hlocked, funds_of_not_lt hbalance (by omega) hfunds, hroom⟩
    | update accountId =>
      obtain ⟨account, hgranted⟩ := hstage
      simp only [WithdrawalCall.next, hamount, Number.toInt?_ofInt] at hnext
      split at hnext
      · cases hnext
      · next updated hupdated =>
        cases hnext
        obtain ⟨current, moved, hcurrent, -, hmoved⟩ := movedAccount_eq_some.mp hupdated
        cases hgranted.found.symm.trans hcurrent
        exact ⟨rfl, account, hgranted, hmoved⟩
    | create accountId n updated =>
      obtain ⟨rfl, account, hgranted, rfl⟩ := hstage
      cases hnext
      exact .debit rfl hpos hgranted rfl rfl
    | finish r lock w =>
      cases hnext
      exact hstage

theorem reversal_next_ok {p : ReversalParams} {stage : ReversalStage} {db : Db} {start now : Int}
    (h : (Process.reversal p stage).Ok db start) :
    ((Process.reversal p stage).next db now).Ok db start := by
  obtain ⟨amount, hamount, hpos, hstage⟩ := h
  simp only [Process.next]
  cases hnext : reversalNext p db now stage with
  | none => trivial
  | some stage' =>
    refine ⟨amount, hamount, hpos, ?_⟩
    cases stage with
    | takeLock =>
      cases hnext
      trivial
    | update =>
      simp only [reversalNext, hamount, Number.toInt?_ofInt] at hnext
      split at hnext
      · cases hnext
      · next updated hupdated =>
        cases hnext
        obtain ⟨account, moved, haccount, -, hmoved⟩ := movedAccount_eq_some.mp hupdated
        exact ⟨account, haccount, hmoved⟩
    | findRows n updated =>
      cases hnext
      exact hstage
    | markRows n updated found marked =>
      obtain rfl | ⟨_, _, rfl⟩ := reversalNext_markRows hnext <;> exact hstage
    | create n updated marked =>
      obtain ⟨account, haccount, rfl⟩ := hstage
      cases hnext
      exact .credit rfl hpos haccount rfl
    | finish w =>
      cases hnext
      exact hstage

/-- A statement keeps what the transaction relies on. -/
theorem next_ok {q : Process} {db : Db} {start now : Int} (h : q.Ok db start) (hs : Sound db start)
    (hday : startOfDay now = start) : (q.next db now).Ok db start := by
  cases q with
  | withdrawal c stage => exact withdrawal_next_ok h hs hday
  | reversal p stage => exact reversal_next_ok h
  | ended r => trivial

theorem finished_committing {q : Process} {db : Db} {start : Int} (h : q.Ok db start)
    {r : Option AuthorizationResult} (hf : q.finished = some r) :
    Committing db start q.held q.writes := by
  cases q with
  | ended r => cases hf
  | withdrawal c stage =>
    obtain ⟨amount, hamount, hpos, hstage⟩ := h
    cases stage <;> first | exact hstage | cases hf
  | reversal p stage =>
    obtain ⟨amount, hamount, hpos, hstage⟩ := h
    cases stage <;> first | exact hstage | cases hf

/-- A statement takes the lock of the account only when it has waited for it. -/
theorem held_next {q : Process} {db : Db} {now : Int} {accountId : String}
    (h : (q.next db now).held = some accountId) :
    q.held = some accountId ∨ ∀ (lockKey : String → Nat) (other : Process),
      other.held.map lockKey = some (lockKey accountId) → q.waitsFor lockKey other = true := by
  cases q with
  | ended r => cases h
  | withdrawal c stage =>
    simp only [Process.next] at h
    cases hnext : c.next db now stage with
    | none => simp [hnext, Process.held] at h
    | some stage' =>
      rw [hnext, Option.map_some, Option.getD_some] at h
      cases stage with
      | findCard =>
        simp only [WithdrawalCall.next] at hnext
        split at hnext
        · cases hnext
          cases h
        · split at hnext
          · cases hnext
            cases h
          · split at hnext <;> cases hnext <;> cases h
      | takeLock id account =>
        cases hnext
        cases h
        exact .inr fun lockKey other hother => by simp [Process.waitsFor, hother]
      | findAccount id account =>
        simp only [WithdrawalCall.next] at hnext
        split at hnext
        · cases hnext
          exact .inl h
        · split at hnext <;> cases hnext <;> exact .inl h
      | aggregate id account =>
        simp only [WithdrawalCall.next] at hnext
        split at hnext <;> cases hnext <;> exact .inl h
      | update id =>
        simp only [WithdrawalCall.next] at hnext
        split at hnext
        · cases hnext
        · split at hnext <;> cases hnext
          exact .inl h
      | create id n updated =>
        cases hnext
        exact .inl h
      | finish r lock w =>
        cases hnext
        exact .inl h
  | reversal p stage =>
    simp only [Process.next] at h
    cases hnext : reversalNext p db now stage with
    | none => simp [hnext, Process.held] at h
    | some stage' =>
      rw [hnext, Option.map_some, Option.getD_some] at h
      cases stage with
      | takeLock =>
        cases hnext
        cases h
        exact .inr fun lockKey other hother => by simp [Process.waitsFor, hother]
      | update =>
        simp only [reversalNext] at hnext
        split at hnext
        · cases hnext
        · split at hnext <;> cases hnext
          exact .inl h
      | findRows n updated =>
        cases hnext
        exact .inl h
      | markRows n updated found marked =>
        obtain rfl | ⟨_, _, rfl⟩ := reversalNext_markRows hnext <;> exact .inl h
      | create n updated marked =>
        cases hnext
        exact .inl h
      | finish w =>
        cases hnext
        exact .inl h

/-- The requests of one UTC day, with positive whole amounts. -/
def OnDay (start : Int) (_ : Concurrent) : ConcurrentStep → Prop
  | .beginWithdrawal c => ∃ amount : Int, 0 < amount ∧ c.p.amount = .ofInt amount
  | .beginReversal p => ∃ amount : Int, 0 < amount ∧ p.amount = .ofInt amount
  | .statement _ now => startOfDay now = start
  | _ => True

theorem getElem?_set_cases {α : Type*} {l : List α} {i j : Nat} {x y : α}
    (h : (l.set i x)[j]? = some y) : (j = i ∧ y = x) ∨ (j ≠ i ∧ l[j]? = some y) := by
  by_cases hji : j = i
  · subst hji
    rw [List.getElem?_set_self'] at h
    obtain ⟨old, -, hy⟩ := Option.map_eq_some_iff.mp h
    exact .inl ⟨rfl, hy.symm⟩
  · rw [List.getElem?_set_ne (Ne.symm hji)] at h
    exact .inr ⟨hji, h⟩

section

variable {lockKey : String → Nat} {start : Int}

/-- Sound tables, transactions that may rely on what they have read, and no lock held twice. -/
structure Guarded (lockKey : String → Nat) (start : Int) (s : Concurrent) : Prop where
  sound : Sound s.db start
  each : ∀ (i : Nat) q, s.processes[i]? = some q → q.Ok s.db start
  exclusive : ∀ (i j : Nat) q q', i ≠ j → s.processes[i]? = some q → s.processes[j]? = some q' →
    ∀ id id', q.held = some id → q'.held = some id' → lockKey id ≠ lockKey id'

theorem guarded_set {s : Concurrent} (h : Guarded lockKey start s) {i : Nat} {q : Process}
    (hok : q.Ok s.db start)
    (hfree : ∀ (j : Nat) q', j ≠ i → s.processes[j]? = some q' →
      ∀ id id', q.held = some id → q'.held = some id' → lockKey id ≠ lockKey id') :
    Guarded lockKey start { s with processes := s.processes.set i q } := by
  refine ⟨h.sound, ?_, ?_⟩
  · intro j q' hj
    rcases getElem?_set_cases hj with ⟨-, rfl⟩ | ⟨-, hold⟩
    · exact hok
    · exact h.each j q' hold
  · intro j k a b hne hj hk id id' ha hb
    rcases getElem?_set_cases hj with ⟨rfl, rfl⟩ | ⟨hji, hja⟩
    · rcases getElem?_set_cases hk with ⟨rfl, -⟩ | ⟨hki, hkb⟩
      · exact absurd rfl hne
      · exact hfree k b hki hkb id id' ha hb
    · rcases getElem?_set_cases hk with ⟨rfl, rfl⟩ | ⟨hki, hkb⟩
      · exact (hfree j a hji hja id' id hb ha).symm
      · exact h.exclusive j k a b hne hja hkb id id' ha hb

theorem guarded_append {s : Concurrent} (h : Guarded lockKey start s) {q : Process}
    (hok : q.Ok s.db start) (hheld : q.held = none) :
    Guarded lockKey start { s with processes := s.processes ++ [q] } := by
  have hat : ∀ (j : Nat) q', (s.processes ++ [q])[j]? = some q' →
      s.processes[j]? = some q' ∨ q' = q := by
    intro j q' hj
    rcases lt_or_ge j s.processes.length with hlt | hge
    · exact .inl (by rwa [List.getElem?_append_left hlt] at hj)
    · rw [List.getElem?_append_right hge] at hj
      have hmem := List.mem_of_getElem? hj
      exact .inr (List.mem_singleton.mp hmem)
  refine ⟨h.sound, ?_, ?_⟩
  · intro j q' hj
    rcases hat j q' hj with hold | rfl
    · exact h.each j q' hold
    · exact hok
  · intro j k a b hne hj hk id id' ha hb
    rcases hat j a hj with hja | rfl
    · rcases hat k b hk with hkb | rfl
      · exact h.exclusive j k a b hne hja hkb id id' ha hb
      · rw [hheld] at hb
        cases hb
    · rw [hheld] at ha
      cases ha

/-- A commit keeps the tables sound and disturbs none of the other transactions. -/
theorem guarded_commit {s : Concurrent} (h : Guarded lockKey start s) {i : Nat} {q : Process}
    (hq : s.processes[i]? = some q) {r : Option AuthorizationResult} (hf : q.finished = some r) :
    Guarded lockKey start ⟨s.db.commit q.writes, s.processes.set i (.ended r)⟩ := by
  have hcommitting := finished_committing (h.each i q hq) hf
  refine ⟨commit_sound hcommitting h.sound, ?_, ?_⟩
  · intro j q' hj
    rcases getElem?_set_cases hj with ⟨-, rfl⟩ | ⟨hji, hold⟩
    · trivial
    · apply (h.each j q' hold).mono (commit_limitsKept hcommitting)
      intro id hid
      apply commit_undisturbed hcommitting h.sound.amounts
      intro hheld
      exact h.exclusive i j q q' (Ne.symm hji) hq hold id id hheld hid rfl
  · intro j k a b hne hj hk id id' ha hb
    rcases getElem?_set_cases hj with ⟨-, rfl⟩ | ⟨-, hja⟩
    · cases ha
    · rcases getElem?_set_cases hk with ⟨-, rfl⟩ | ⟨-, hkb⟩
      · cases hb
      · exact h.exclusive j k a b hne hja hkb id id' ha hb

theorem guarded_step (s : Concurrent) (a : ConcurrentStep) (t : Concurrent)
    (h : Guarded lockKey start s) (hok : OnDay start s a)
    (hstep : concurrentStep lockKey s a = some t) : Guarded lockKey start t := by
  cases a with
  | beginWithdrawal c =>
    obtain ⟨amount, hpos, hamount⟩ := hok
    cases hstep
    exact guarded_append h ⟨amount, hamount, hpos, trivial⟩ rfl
  | beginReversal p =>
    obtain ⟨amount, hpos, hamount⟩ := hok
    cases hstep
    exact guarded_append h ⟨amount, hamount, hpos, trivial⟩ rfl
  | statement i now =>
    simp only [concurrentStep] at hstep
    split at hstep
    · cases hstep
    · next q hq =>
      split at hstep
      · cases hstep
      · next hwait =>
        cases hstep
        apply guarded_set h (next_ok (h.each i q hq) h.sound hok)
        intro j q' hji hq' id id' hid hid' hkey
        rcases held_next hid with hheld | hwaited
        · exact h.exclusive i j q q' (Ne.symm hji) hq hq' id id' hheld hid' hkey
        · have hother : q' ∈ s.processes.eraseIdx i :=
            List.mem_eraseIdx_iff_getElem?.mpr ⟨j, hji, hq'⟩
          exact hwait (List.any_eq_true.mpr
            ⟨q', hother, hwaited lockKey q' (by rw [hid', Option.map_some, hkey])⟩)
  | commit i =>
    simp only [concurrentStep] at hstep
    split at hstep
    · cases hstep
    · next q hq =>
      split at hstep
      · cases hstep
      · next r hf =>
        cases hstep
        exact guarded_commit h hq hf
  | rollback i =>
    simp only [concurrentStep] at hstep
    split at hstep
    · cases hstep
    · cases hstep
      exact guarded_set h trivial fun j q' _ _ id id' hid => by cases hid

/-- Whatever the interleaving, committed tables that were within their limits stay so. -/
theorem withinLimits_of_reaches {db : Db} (hdb : WithinLimits db start) (hsafe : SafeLimits db)
    (hamounts : NonnegAmounts db) {s : Concurrent}
    (h : Runs.Reaches (concurrentStep lockKey) (OnDay start) ⟨db, []⟩ s) :
    WithinLimits s.db start := by
  have hinit : Guarded lockKey start ⟨db, []⟩ :=
    ⟨⟨hdb, hsafe, hamounts⟩, fun i q hq => by simp at hq, fun i j q q' _ hq => by simp at hq⟩
  exact (Runs.Reaches.invariant (P := Guarded lockKey start) guarded_step hinit h).sound.within

end

theorem along_onDay {lockKey : String → Nat} {start : Int} {as : List ConcurrentStep}
    (h : ∀ a ∈ as, ∀ s, OnDay start s a) (s : Concurrent) :
    Runs.Along (concurrentStep lockKey) (OnDay start) s as := by
  induction as generalizing s with
  | nil => trivial
  | cons a as ih =>
    exact fun t _ => ⟨h a List.mem_cons_self s, ih (fun b hb => h b (List.mem_cons_of_mem a hb)) t⟩

def withdrawalOf (amount : Int) (sessionId stanNo : String) : WithdrawalCall :=
  ⟨⟨"4580", .ofInt amount, sessionId, none⟩, jalinProfile, stanNo, "123456"⟩

/-- Two withdrawals on one account, the second waiting for the lock of the first. -/
def twoWithdrawals : List ConcurrentStep :=
  [.beginWithdrawal (withdrawalOf 400000 "S1" "000001"),
   .beginWithdrawal (withdrawalOf 300000 "S2" "000002"),
   .statement 0 0, .statement 1 0, .statement 0 0, .statement 0 0, .statement 0 0, .statement 0 0,
   .statement 0 0, .commit 0, .statement 1 0, .statement 1 0, .commit 1]

theorem withinLimits_of_twoWithdrawals :
    ∃ s, Runs.exec (concurrentStep String.length) ⟨oneAccount.db, []⟩ twoWithdrawals = some s ∧
      WithinLimits s.db 0 := by
  obtain ⟨s, hs⟩ : ∃ s, Runs.exec (concurrentStep String.length) ⟨oneAccount.db, []⟩
      twoWithdrawals = some s := Option.isSome_iff_exists.mp (by decide +kernel)
  have hone : ∀ id account, oneAccount.db.accounts id = some account →
      account = ⟨500000, 10000000, 0, .active⟩ := by
    intro id account h
    simp only [oneAccount] at h
    split at h <;> cases h
    rfl
  have hday : ∀ a ∈ twoWithdrawals, ∀ s, OnDay 0 s a := by
    intro a ha s
    simp only [twoWithdrawals, List.mem_cons, List.not_mem_nil, or_false] at ha
    rcases ha with rfl | rfl | rfl | rfl | rfl | rfl | rfl | rfl | rfl | rfl | rfl | rfl | rfl
    · exact ⟨400000, by decide, rfl⟩
    · exact ⟨300000, by decide, rfl⟩
    all_goals first | rfl | trivial
  refine ⟨s, hs, withinLimits_of_reaches ?_ ?_ ?_ ⟨twoWithdrawals, along_onDay hday _, hs⟩⟩
  · intro id account h
    rw [hone id account h]
    exact ⟨by decide, by simp [oneAccount, dailyTotal, completedSum_nil]⟩
  · intro id account h
    rw [hone id account h]
    decide
  · intro row hrow
    cases hrow

/-- An account with a limit of `2 ^ 53` that was withdrawn to the last rupiah. -/
def fullDay : Db where
  accounts := fun id => if id = "ACC" then some ⟨1, 2 ^ 53, 0, .active⟩ else none
  cards := fun pan => if pan = "4580" then some ⟨"ACC", "3012", .active⟩ else none
  transactions := [⟨"S0", "4580", "ACC", .withdrawal, 2 ^ 53, .completed, some "000001", none, none,
    none, 0⟩]

def oneRupiah : List ConcurrentStep :=
  [.beginWithdrawal (withdrawalOf 1 "S1" "000002"), .statement 0 0, .statement 0 0,
   .statement 0 0, .statement 0 0, .statement 0 0, .statement 0 0, .commit 0]

/-- `Number(2 ^ 53) + 1` is `2 ^ 53` again: the limit does not stop one rupiah more. -/
theorem limit_not_kept :
    WithinLimits fullDay 0 ∧ NonnegAmounts fullDay ∧
      ∃ s, Runs.Reaches (concurrentStep String.length) (OnDay 0) ⟨fullDay, []⟩ s ∧
        ¬ WithinLimits s.db 0 := by
  have hfull : (Runs.exec (concurrentStep String.length) ⟨fullDay, []⟩ oneRupiah).any (fun s =>
      dailyTotal s.db.transactions "ACC" 0 = 2 ^ 53 + 1 ∧
        s.db.accounts "ACC" = some ⟨0, 2 ^ 53, 1, .active⟩) = true := by decide +kernel
  obtain ⟨s, hs, hend⟩ := (Option.any_eq_true ..).mp hfull
  have hday : ∀ a ∈ oneRupiah, ∀ s, OnDay 0 s a := by
    intro a ha s
    simp only [oneRupiah, List.mem_cons, List.not_mem_nil, or_false] at ha
    rcases ha with rfl | rfl | rfl | rfl | rfl | rfl | rfl | rfl
    · exact ⟨1, by decide, rfl⟩
    all_goals first | rfl | trivial
  refine ⟨?_, ?_, s, ⟨oneRupiah, along_onDay hday _, hs⟩, ?_⟩
  · intro id account h
    simp only [fullDay] at h
    split at h <;> cases h
    next hid =>
      subst hid
      decide
  · intro row hrow _ _
    cases List.mem_singleton.mp hrow
    decide
  · intro hwithin
    obtain ⟨htotal, haccount⟩ := of_decide_eq_true hend
    have hlimit := (hwithin "ACC" _ haccount).2
    rw [htotal] at hlimit
    exact absurd hlimit (by decide)

end AtmXfs.Host
