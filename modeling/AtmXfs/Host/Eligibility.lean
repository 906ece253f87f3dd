import AtmXfs.Host.Emulator

namespace AtmXfs.Host

open Js

/-- The card is ACTIVE and not past its expiry month, and so is its account. -/
def eligible (db : Db) (now : Int) (pan : String) : Bool :=
  (db.cards pan).any fun card =>
    card.status = .active && !isExpired now card.expiryDate &&
      (db.accounts card.accountId).any (·.status = .active)

/-- A card whose status says EXPIRED although nothing else speaks against it. -/
def markedExpired (db : Db) (now : Int) (pan : String) : Bool :=
  (db.cards pan).any fun card =>
    card.status = .expired && !isExpired now card.expiryDate &&
      (db.accounts card.accountId).any (·.status = .active)

/-- Both operations serve eligible cards only, and what one approves the other accepts. -/
structure OneRule (h : HostEmulatorService) (now : Int) (authCode : String)
    (p : WithdrawalParams) : Prop where
  authenticates : (authenticate h.db now p.pan).success = true → eligible h.db now p.pan = true
  approves : (authorizeWithdrawal h now authCode p).1.approved = true →
    eligible h.db now p.pan = true
  agrees : (authorizeWithdrawal h now authCode p).1.approved = true →
    (authenticate h.db now p.pan).success = true

/-- The card and its account exist, and the amount keeps to the cap of the switch, the balance, the
daily limit and the columns. -/
def affordable (db : Db) (now : Int) (p : WithdrawalParams) : Bool :=
  (db.cards p.pan).any fun card => (db.accounts card.accountId).any fun account =>
    p.amount.toInt?.any fun amount =>
      amount ≤ (p.switchProfile.getD (getSwitchByPan p.pan)).maxWithdrawalIdr &&
      !(Number.ofBigInt account.balance).lt (.ofInt amount) &&
      !exceedsLimit account.dailyLimit
        (dailyTotal db.transactions card.accountId (startOfDay now)) (.ofInt amount) &&
      (isInt8 amount && isInt8 (account.balance - amount) &&
        isInt8 (account.dailyWithdrawn + amount))

/-- An eligible card, or one that nothing but its own status and date could keep from being served:
that status is not a mere EXPIRED, and the amount is refused. -/
def ruleApplies (db : Db) (now : Int) (p : WithdrawalParams) : Bool :=
  eligible db now p.pan || !markedExpired db now p.pan && !affordable db now p

theorem affordable_iff {db : Db} {now : Int} {p : WithdrawalParams} (authCode stanNo : String) :
    affordable db now p = true ↔ ∃ card account amount moved, Approval db now authCode stanNo
      (p.switchProfile.getD (getSwitchByPan p.pan)) p card account amount moved := by
  unfold affordable
  constructor
  · intro h
    obtain ⟨card, hcard, hany⟩ := (Option.any_eq_true ..).mp h
    obtain ⟨account, haccount, hwhole⟩ := (Option.any_eq_true ..).mp hany
    obtain ⟨amount, hamount, hchecks⟩ := (Option.any_eq_true ..).mp hwhole
    obtain ⟨hbefore, hfits⟩ := Bool.and_eq_true_iff.mp hchecks
    obtain ⟨moved, hmoved⟩ := (Db.debit_isSome haccount).mpr
      (by simpa only [Bool.and_eq_true, and_assoc] using hfits)
    simp only [Bool.and_eq_true, Bool.not_eq_true', decide_eq_true_eq] at hbefore
    exact ⟨card, account, amount, moved, hcard, haccount, Number.toInt?_eq_some.mp hamount,
      hbefore.1.1, hbefore.1.2, hbefore.2, hmoved⟩
  · rintro ⟨card, account, amount, moved, happroval⟩
    obtain ⟨hsent, hbalance, hdaily⟩ :=
      (Db.debit_isSome happroval.owned).mp ⟨moved, happroval.paid⟩
    simp only [happroval.found, happroval.owned, happroval.whole, Option.any_some,
      Number.toInt?_ofInt, happroval.funds, happroval.limit, decide_eq_true happroval.cap, hsent,
      hbalance, hdaily]
    rfl

/-- The withdrawal looks at the amount only, never at the status of the card or its account. -/
theorem approved_iff (h : HostEmulatorService) (now : Int) (authCode : String)
    (p : WithdrawalParams) :
    (authorizeWithdrawal h now authCode p).1.approved = true ↔ affordable h.db now p = true := by
  rw [affordable_iff authCode (formatStan h.stanCounter)]
  constructor
  · intro happroved
    rcases authorizeWithdrawal_cases h now authCode p with ⟨hdeclined, -, -⟩ | ⟨-, -, hrest⟩
    · rw [hdeclined] at happroved
      cases happroved
    · obtain ⟨card, account, amount, moved, happroval, -⟩ := hrest
      exact ⟨card, account, amount, moved, happroval⟩
  · rintro ⟨card, account, amount, moved, happroval⟩
    obtain ⟨r, happroved, -, htx⟩ := authorizeTx_of_approval happroval
    simp only [authorizeWithdrawal, htx]
    exact happroved

/-- `authenticate` does not look for the status EXPIRED. -/
theorem authenticate_iff (db : Db) (now : Int) (pan : String) :
    (authenticate db now pan).success = true ↔
      eligible db now pan = true ∨ markedExpired db now pan = true := by
  unfold authenticate eligible markedExpired
  cases db.cards pan with
  | none => simp
  | some card =>
    have haccount : ∀ (active : Bool) (yes no : AuthResult), yes.success = true →
        no.success = false → ((if active then yes else no).success = true ↔ active = true) := by
      intro active yes no hyes hno
      cases active <;> simp [hyes, hno]
    cases hexpired : isExpired now card.expiryDate with
    | true => cases hstatus : card.status <;> simp [hstatus, hexpired]
    | false => cases hstatus : card.status <;> simp [hstatus, hexpired, haccount]

/-- The two operations apply the rule exactly where it speaks for the card, or where the card is not
merely marked as EXPIRED and the amount is refused. -/
theorem oneRule_iff (h : HostEmulatorService) (now : Int) (authCode : String)
    (p : WithdrawalParams) : OneRule h now authCode p ↔ ruleApplies h.db now p = true := by
  have hauth := authenticate_iff h.db now p.pan
  have happroved := approved_iff h now authCode p
  unfold ruleApplies
  cases heligible : eligible h.db now p.pan with
  | true =>
    have hsuccess := hauth.mpr (.inl heligible)
    simp only [Bool.true_or, iff_true]
    exact ⟨fun _ => heligible, fun _ => heligible, fun _ => hsuccess⟩
  | false =>
    rw [heligible] at hauth
    simp only [Bool.false_or, Bool.and_eq_true, Bool.not_eq_true']
    constructor
    · rintro ⟨hauthenticates, happroves, -⟩
      constructor
      · rw [← Bool.not_eq_true]
        intro hmarked
        have := hauthenticates (hauth.mpr (.inr hmarked))
        rw [heligible] at this
        cases this
      · rw [← Bool.not_eq_true]
        intro haffordable
        have := happroves (happroved.mpr haffordable)
        rw [heligible] at this
        cases this
    · rintro ⟨hmarked, haffordable⟩
      rw [hmarked] at hauth
      rw [haffordable] at happroved
      refine ⟨fun hsuccess => ?_, fun hyes => ?_, fun hyes => ?_⟩
      · have hnever := hauth.mp hsuccess
        simp at hnever
      · have hnever := happroved.mp hyes
        cases hnever
      · have hnever := happroved.mp hyes
        cases hnever

/-- A host with one card of the given status, valid until December 2030, and its account. -/
def hostWithCard (status : CardStatus) : HostEmulatorService where
  db := {
    accounts := fun id => if id = "ACC" then some ⟨1000000, 5000000, 0, .active⟩ else none
    cards := fun pan => if pan = "4580" then some ⟨"ACC", "3012", status⟩ else none
    transactions := [] }
  stanCounter := 1

def smallWithdrawal : WithdrawalParams := ⟨"4580", .ofInt 100000, "S1", none⟩

/-- A card marked as EXPIRED is authenticated, and a retained one is refused but debited. -/
theorem rule_broken :
    ¬ OneRule (hostWithCard .expired) 0 "123456" smallWithdrawal ∧
      ¬ OneRule (hostWithCard .retained) 0 "123456" smallWithdrawal := by
  have hexpired : (authenticate (hostWithCard .expired).db 0 "4580").success = true := by decide
  have hretained : (authenticate (hostWithCard .retained).db 0 "4580").success = false := by decide
  have happroved : (authorizeWithdrawal (hostWithCard .retained) 0 "123456"
      smallWithdrawal).1.approved = true := by decide +kernel
  constructor
  · intro hrule
    have heligible := hrule.authenticates hexpired
    revert heligible
    decide
  · intro hrule
    have hsuccess := hrule.agrees happroved
    cases hretained.symm.trans hsuccess

end AtmXfs.Host
