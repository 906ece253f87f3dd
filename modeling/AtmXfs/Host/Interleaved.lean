import AtmXfs.Host.DailyLimit

namespace AtmXfs.Host

open Js

/-- What a row says its account was moved by: only the row of a withdrawal has a response code. -/
def Transaction.booked (row : Transaction) : Int :=
  if row.responseCode = some "00" then -row.amount else row.amount

/-- What the rows say an account was moved by. -/
def booked (rows : List Transaction) (accountId : String) : Int :=
  (rows.map fun row => if row.accountId = accountId then row.booked else 0).sum

/-- What a transaction at its end commits: nothing, or an account moved by what its row says. -/
inductive Booking (db : Db) : Writes → Prop
  | nothing : Booking db .none
  | moved {accountId : String} {updated : Account} {marked : List Nat} {reason : String}
      {row : Transaction} : Moved db accountId row.booked updated → row.accountId = accountId →
      Booking db ⟨some (accountId, updated), marked, reason, some row⟩

namespace Process

/-- The account row that the transaction has written and not committed. -/
def written (q : Process) : Option String := q.writes.account.map Prod.fst

/-- The account row is the committed one, moved. -/
def Pending (db : Db) : Process → Prop
  | .withdrawal _ (.create accountId amount updated) => Moved db accountId (-amount) updated
  | .withdrawal _ (.finish _ _ w) => Booking db w
  | .reversal p (.findRows amount updated) => Moved db p.accountId amount updated
  | .reversal p (.markRows amount updated _ _) => Moved db p.accountId amount updated
  | .reversal p (.create amount updated _) => Moved db p.accountId amount updated
  | .reversal _ (.finish w) => Booking db w
  | _ => True

end Process

@[simp] theorem Account.moved_zero (account : Account) : account.moved 0 = account := by
  simp [Account.moved]

theorem Account.moved_moved (account : Account) (m n : Int) :
    (account.moved m).moved n = account.moved (m + n) := by
  simp only [Account.moved, Account.mk.injEq, and_true, true_and]
  omega

theorem booked_append (rows rows' : List Transaction) (accountId : String) :
    booked (rows ++ rows') accountId = booked rows accountId + booked rows' accountId := by
  simp [booked]

/-- Marking a row does not change what it says. -/
theorem booked_markRows (marked : List Nat) (reason : String) (rows : List Transaction)
    (accountId : String) : booked (markRows marked reason rows) accountId =
      booked rows accountId := by
  unfold booked
  congr 1
  apply List.ext_getElem?
  intro n
  rw [List.getElem?_map, List.getElem?_map, markRows, List.getElem?_mapIdx]
  cases rows[n]? with
  | none => rfl
  | some row =>
    simp only [Option.map_some, Option.some.injEq]
    split <;> rfl

/-- A commit moves every account by what its rows say. -/
theorem commit_booked {db : Db} {w : Writes} (h : Booking db w) (accountId : String) :
    (db.commit w).accounts accountId = (db.accounts accountId).map fun account =>
      account.moved (booked (db.commit w).transactions accountId -
        booked db.transactions accountId) := by
  cases h with
  | nothing => simp
  | @moved id updated marked reason row hmoved howner =>
    obtain ⟨account, haccount, rfl⟩ := hmoved
    have hrows : booked (db.commit ⟨some (id, account.moved row.booked), marked, reason,
        some row⟩).transactions accountId =
          booked db.transactions accountId + if id = accountId then row.booked else 0 := by
      simp only [Db.commit, Option.toList_some]
      rw [booked_append, booked_markRows]
      simp [booked, howner]
    rw [hrows, add_sub_cancel_left]
    by_cases hid : id = accountId
    · subst hid
      simp [Db.commit, haccount]
    · simp [Db.commit, Function.update_of_ne (Ne.symm hid), if_neg hid]

theorem moved_of_movedAccount {db : Db} {accountId : String} {sent change : Int}
    {updated : Account} (h : db.movedAccount accountId sent change = some updated) :
    Moved db accountId change updated := by
  obtain ⟨account, moved, haccount, -, rfl⟩ := movedAccount_eq_some.mp h
  exact ⟨account, haccount, rfl⟩

theorem withdrawal_next_pending {c : WithdrawalCall} {stage : WithdrawalStage} {db : Db} {now : Int}
    (h : (Process.withdrawal c stage).Pending db) :
    ((Process.withdrawal c stage).next db now).Pending db := by
  simp only [Process.next]
  cases hnext : c.next db now stage with
  | none => trivial
  | some stage' =>
    rw [Option.map_some, Option.getD_some]
    cases stage with
    | findCard =>
      simp only [WithdrawalCall.next] at hnext
      split at hnext
      · cases hnext
        exact .nothing
      · split at hnext
        · cases hnext
          exact .nothing
        · split at hnext <;> cases hnext
          · exact .nothing
          · trivial
    | takeLock id account =>
      cases hnext
      trivial
    | findAccount id account =>
      simp only [WithdrawalCall.next] at hnext
      split at hnext
      · cases hnext
        exact .nothing
      · split at hnext <;> cases hnext
        · exact .nothing
        · trivial
    | aggregate id account =>
      simp only [WithdrawalCall.next] at hnext
      split at hnext <;> cases hnext
      · exact .nothing
      · trivial
    | update id =>
      simp only [WithdrawalCall.next] at hnext
      split at hnext
      · cases hnext
      · next amount hamount =>
        split at hnext
        · cases hnext
        · next updated hupdated =>
          cases hnext
          exact moved_of_movedAccount hupdated
    | create id n updated =>
      cases hnext
      exact .moved h rfl
    | finish r lock w =>
      cases hnext
      exact h

theorem reversal_next_pending {p : ReversalParams} {stage : ReversalStage} {db : Db} {now : Int}
    (h : (Process.reversal p stage).Pending db) :
    ((Process.reversal p stage).next db now).Pending db := by
  simp only [Process.next]
  cases hnext : reversalNext p db now stage with
  | none => trivial
  | some stage' =>
    rw [Option.map_some, Option.getD_some]
    cases stage with
    | takeLock =>
      cases hnext
      trivial
    | update =>
      simp only [reversalNext] at hnext
      split at hnext
      · cases hnext
      · split at hnext
        · cases hnext
        · next updated hupdated =>
          cases hnext
          exact moved_of_movedAccount hupdated
    | findRows n updated =>
      cases hnext
      exact h
    | markRows n updated found marked =>
      obtain rfl | ⟨_, _, rfl⟩ := reversalNext_markRows hnext <;> exact h
    | create n updated marked =>
      cases hnext
      exact .moved h rfl
    | finish w =>
      cases hnext
      exact h

theorem next_pending {q : Process} {db : Db} {now : Int} (h : q.Pending db) :
    (q.next db now).Pending db := by
  cases q with
  | withdrawal c stage => exact withdrawal_next_pending h
  | reversal p stage => exact reversal_next_pending h
  | ended r => trivial

theorem finished_booking {q : Process} {db : Db} (h : q.Pending db)
    {r : Option AuthorizationResult} (hf : q.finished = some r) : Booking db q.writes := by
  cases q with
  | ended r => cases hf
  | withdrawal c stage => cases stage <;> first | exact h | cases hf
  | reversal p stage => cases stage <;> first | exact h | cases hf

theorem Booking.mono {db db' : Db} {w : Writes} (h : Booking db w)
    (hsame : ∀ id, w.account.map Prod.fst = some id → db'.accounts id = db.accounts id) :
    Booking db' w := by
  cases h with
  | nothing => exact .nothing
  | moved hmoved howner =>
    obtain ⟨account, haccount, rfl⟩ := hmoved
    exact .moved ⟨account, (hsame _ rfl).trans haccount, rfl⟩ howner

/-- A transaction does not notice commits that leave the account it has written alone. -/
theorem Process.Pending.mono {db db' : Db} {q : Process} (h : q.Pending db)
    (hsame : ∀ id, q.written = some id → db'.accounts id = db.accounts id) : q.Pending db' := by
  have hmoved : ∀ id amount updated, q.written = some id → Moved db id amount updated →
      Moved db' id amount updated := fun id amount updated hid ⟨account, haccount, hupdated⟩ =>
    ⟨account, (hsame id hid).trans haccount, hupdated⟩
  cases q with
  | ended r => trivial
  | withdrawal c stage =>
    cases stage with
    | create id n updated => exact hmoved id _ _ rfl h
    | finish r lock w => exact Booking.mono h hsame
    | _ => trivial
  | reversal p stage =>
    cases stage with
    | findRows n updated => exact hmoved _ _ _ rfl h
    | markRows n updated found marked => exact hmoved _ _ _ rfl h
    | create n updated marked => exact hmoved _ _ _ rfl h
    | finish w => exact Booking.mono h hsame
    | _ => trivial

/-- A statement writes an account only when it has waited for its row. -/
theorem written_next {q : Process} {db : Db} {now : Int} {accountId : String} (hp : q.Pending db)
    (h : (q.next db now).written = some accountId) :
    q.written = some accountId ∨ ∀ (lockKey : String → Nat) (other : Process),
      other.written = some accountId → q.waitsFor lockKey other = true := by
  cases q with
  | ended r => cases h
  | withdrawal c stage =>
    simp only [Process.next] at h
    cases hnext : c.next db now stage with
    | none => simp [hnext, Process.written, Process.writes, Writes.none] at h
    | some stage' =>
      rw [hnext, Option.map_some, Option.getD_some] at h
      cases stage with
      | findCard =>
        simp only [WithdrawalCall.next] at hnext
        split at hnext
        · cases hnext
          cases h
        · split at hnext
          · cases hnext
            cases h
          · split at hnext <;> cases hnext <;> cases h
      | takeLock id account =>
        cases hnext
        cases h
      | findAccount id account =>
        simp only [WithdrawalCall.next] at hnext
        split at hnext
        · cases hnext
          cases h
        · split at hnext <;> cases hnext <;> cases h
      | aggregate id account =>
        simp only [WithdrawalCall.next] at hnext
        split at hnext <;> cases hnext <;> cases h
      | update id =>
        simp only [WithdrawalCall.next] at hnext
        split at hnext
        · cases hnext
        · split at hnext <;> cases hnext
          cases h
          exact .inr fun lockKey other hother => decide_eq_true hother
      | create id n updated =>
        cases hnext
        exact .inl h
      | finish r lock w =>
        cases hnext
        exact .inl h
  | reversal p stage =>
    simp only [Process.next] at h
    cases hnext : reversalNext p db now stage with
    | none => simp [hnext, Process.written, Process.writes, Writes.none] at h
    | some stage' =>
      rw [hnext, Option.map_some, Option.getD_some] at h
      cases stage with
      | takeLock =>
        cases hnext
        cases h
      | update =>
        simp only [reversalNext] at hnext
        split at hnext
        · cases hnext
        · split at hnext <;> cases hnext
          cases h
          exact .inr fun lockKey other hother => decide_eq_true hother
      | findRows n updated =>
        cases hnext
        exact .inl h
      | markRows n updated found marked =>
        obtain rfl | ⟨_, _, rfl⟩ := reversalNext_markRows hnext <;> exact .inl h
      | create n updated marked =>
        cases hnext
        exact .inl h
      | finish w =>
        cases hnext
        exact .inl h

/-- The committed accounts are the opening ones moved by what the rows of the run say; what the
transactions have written is of different accounts. -/
structure Kept (opening : Db) (s : Concurrent) : Prop where
  pending : ∀ (i : Nat) q, s.processes[i]? = some q → q.Pending s.db
  exclusive : ∀ (i j : Nat) q q', i ≠ j → s.processes[i]? = some q → s.processes[j]? = some q' →
    ∀ id, q.written = some id → q'.written ≠ some id
  accounts : ∀ id, s.db.accounts id = (opening.accounts id).map fun account =>
    account.moved (booked s.db.transactions id - booked opening.transactions id)

section

variable {opening : Db} {s : Concurrent}

theorem Kept.set (h : Kept opening s) {i : Nat} {q : Process} (hq : q.Pending s.db)
    (hfree : ∀ (j : Nat) q', j ≠ i → s.processes[j]? = some q' →
      ∀ id, q.written = some id → q'.written ≠ some id) :
    Kept opening { s with processes := s.processes.set i q } where
  pending j q' hj := by
    rcases getElem?_set_cases hj with ⟨-, rfl⟩ | ⟨-, hold⟩
    · exact hq
    · exact h.pending j q' hold
  exclusive j k a b hne hj hk id ha hb := by
    rcases getElem?_set_cases hj with ⟨rfl, rfl⟩ | ⟨hji, hja⟩
    · rcases getElem?_set_cases hk with ⟨rfl, -⟩ | ⟨hki, hkb⟩
      · exact hne rfl
      · exact hfree k b hki hkb id ha hb
    · rcases getElem?_set_cases hk with ⟨rfl, rfl⟩ | ⟨hki, hkb⟩
      · exact hfree j a hji hja id hb ha
      · exact h.exclusive j k a b hne hja hkb id ha hb
  accounts := h.accounts

theorem Kept.begin (h : Kept opening s) {q : Process} (hq : q.Pending s.db)
    (hwritten : q.written = none) :
    Kept opening { s with processes := s.processes ++ [q] } := by
  have hat : ∀ (j : Nat) q', (s.processes ++ [q])[j]? = some q' →
      s.processes[j]? = some q' ∨ q' = q := by
    intro j q' hj
    rcases lt_or_ge j s.processes.length with hlt | hge
    · exact .inl (by rwa [List.getElem?_append_left hlt] at hj)
    · rw [List.getElem?_append_right hge] at hj
      exact .inr (List.mem_singleton.mp (List.mem_of_getElem? hj))
  refine ⟨?_, ?_, h.accounts⟩
  · intro j q' hj
    rcases hat j q' hj with hold | rfl
    · exact h.pending j q' hold
    · exact hq
  · intro j k a b hne hj hk id ha hb
    rcases hat j a hj with hja | rfl
    · rcases hat k b hk with hkb | rfl
      · exact h.exclusive j k a b hne hja hkb id ha hb
      · rw [hwritten] at hb
        cases hb
    · rw [hwritten] at ha
      cases ha

/-- A commit moves the account it has written, and none that another transaction has. -/
theorem Kept.commit (h : Kept opening s) {i : Nat} {q : Process} (hq : s.processes[i]? = some q)
    {r : Option AuthorizationResult} (hf : q.finished = some r) :
    Kept opening ⟨s.db.commit q.writes, s.processes.set i (.ended r)⟩ := by
  have hbooking := finished_booking (h.pending i q hq) hf
  refine ⟨?_, ?_, ?_⟩
  · intro j q' hj
    rcases getElem?_set_cases hj with ⟨-, rfl⟩ | ⟨hji, hold⟩
    · trivial
    · apply (h.pending j q' hold).mono
      intro id hid
      have hother : q.written ≠ some id := h.exclusive j i q' q hji hold hq id hid
      cases hw : q.writes.account with
      | none => simp [Db.commit, hw]
      | some written =>
        have hne : id ≠ written.1 := fun heq => hother (by rw [Process.written, hw, heq]; rfl)
        simp [Db.commit, hw, Function.update_of_ne hne]
  · intro j k a b hne hj hk id ha hb
    rcases getElem?_set_cases hj with ⟨-, rfl⟩ | ⟨-, hja⟩
    · cases ha
    · rcases getElem?_set_cases hk with ⟨-, rfl⟩ | ⟨-, hkb⟩
      · cases hb
      · exact h.exclusive j k a b hne hja hkb id ha hb
  · intro id
    rw [commit_booked hbooking, h.accounts, Option.map_map]
    congr 1
    funext account
    rw [Function.comp_apply, Account.moved_moved]
    congr 1
    dsimp only
    omega

end

theorem kept_step {opening : Db} {lockKey : String → Nat} (s : Concurrent) (a : ConcurrentStep)
    (t : Concurrent) (h : Kept opening s) (hstep : concurrentStep lockKey s a = some t) :
    Kept opening t := by
  cases a with
  | beginWithdrawal c =>
    cases hstep
    exact h.begin trivial rfl
  | beginReversal p =>
    cases hstep
    exact h.begin trivial rfl
  | statement i now =>
    simp only [concurrentStep] at hstep
    split at hstep
    · cases hstep
    · next q hq =>
      split at hstep
      · cases hstep
      · next hwait =>
        cases hstep
        have hpending := h.pending i q hq
        refine h.set (next_pending hpending) ?_
        intro j q' hji hq' id hid hid'
        rcases written_next hpending hid with hold | hwaited
        · exact h.exclusive i j q q' (Ne.symm hji) hq hq' id hold hid'
        · have hother : q' ∈ s.processes.eraseIdx i :=
            List.mem_eraseIdx_iff_getElem?.mpr ⟨j, hji, hq'⟩
          exact hwait (List.any_eq_true.mpr ⟨q', hother, hwaited lockKey q' hid'⟩)
  | commit i =>
    simp only [concurrentStep] at hstep
    split at hstep
    · cases hstep
    · next q hq =>
      split at hstep
      · cases hstep
      · next r hf =>
        cases hstep
        exact h.commit hq hf
  | rollback i =>
    simp only [concurrentStep] at hstep
    split at hstep
    · cases hstep
    · cases hstep
      exact h.set trivial fun j q' _ _ id hid => by cases hid

/-- Whatever the requests and however their statements, commits and rollbacks interleave, every
account is the one of before moved by what the rows written meanwhile say: no update is lost. -/
theorem accounts_booked (lockKey : String → Nat) (db : Db) {s : Concurrent}
    (h : Runs.Reaches (concurrentStep lockKey) Runs.free ⟨db, []⟩ s) (accountId : String) :
    s.db.accounts accountId = (db.accounts accountId).map fun account =>
      account.moved (booked s.db.transactions accountId - booked db.transactions accountId) := by
  have hinit : Kept db ⟨db, []⟩ := by
    refine ⟨fun i q hq => by simp at hq, fun i j q q' _ hq => by simp at hq, fun id => ?_⟩
    simp
  exact (Runs.Reaches.invariant (fun s a t hs _ => kept_step s a t hs) hinit h).accounts accountId

/-- A withdrawal whose statements run between those of a reversal of the same account. -/
def withdrawalAndReversal : List ConcurrentStep :=
  [.beginWithdrawal (withdrawalOf 400000 "S1" "000002"),
   .beginReversal ⟨"000001", "S0", "4580", "ACC", .ofInt 50000, "dispense failed"⟩,
   .statement 1 0, .statement 0 0, .statement 1 0, .statement 1 0, .statement 1 0, .statement 1 0,
   .commit 1, .statement 0 0, .statement 0 0, .statement 0 0, .statement 0 0, .statement 0 0,
   .commit 0]

theorem accounts_booked_reversal :
    ∃ s, Runs.exec (concurrentStep String.length) ⟨oneAccount.db, []⟩ withdrawalAndReversal =
        some s ∧ s.db.accounts "ACC" = some ⟨150000, 10000000, 350000, .active⟩ ∧
      s.db.accounts "ACC" = (oneAccount.db.accounts "ACC").map fun account =>
        account.moved
          (booked s.db.transactions "ACC" - booked oneAccount.db.transactions "ACC") := by
  have hrun : (Runs.exec (concurrentStep String.length) ⟨oneAccount.db, []⟩
      withdrawalAndReversal).any (fun s =>
        s.db.accounts "ACC" = some ⟨150000, 10000000, 350000, .active⟩) = true := by decide +kernel
  obtain ⟨s, hs, hend⟩ := (Option.any_eq_true ..).mp hrun
  exact ⟨s, hs, of_decide_eq_true hend,
    accounts_booked String.length oneAccount.db (.of_exec withdrawalAndReversal hs) "ACC"⟩

end AtmXfs.Host
