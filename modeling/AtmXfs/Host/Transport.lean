import AtmXfs.Host.Ledger

namespace AtmXfs.Host

open Js

/-- The fields of a frame: the last text written under each name. -/
abbrev Fields := String → Option String

/-- `s.split('|')`, with the characters of the part that is being read. -/
def splitBar (part : List Char) : List Char → List (List Char)
  | [] => [part.reverse]
  | '|' :: cs => part.reverse :: splitBar [] cs
  | c :: cs => splitBar (c :: part) cs

/-- One `KEY=VALUE` pair; a pair without a name or without `=` is skipped. -/
def readPair (out : Fields) (pair : List Char) : Fields :=
  match pair.takeWhile (· ≠ '='), pair.dropWhile (· ≠ '=') with
  | c :: key, _ :: value =>
    -- on a plain object this name is the prototype, which a text does not replace
    if String.ofList (c :: key) = "__proto__" then out
    else Function.update out (String.ofList (c :: key)) (some (String.ofList value))
  | _, _ => out

def parseSimpleFields (s : List Char) : Fields := (splitBar [] s).foldl readPair fun _ => none

/-- A response: its MTI and its `KEY=VALUE` pairs in the order they are written. -/
structure IsoReply where
  mti : String
  pairs : List (String × String)
  deriving DecidableEq

def IsoReply.text (r : IsoReply) : String :=
  r.mti ++ String.join (r.pairs.map fun e => "|" ++ e.1 ++ "=" ++ e.2)

/-- A withdrawal is answered as approved: field 39 of the 0210 is 00. -/
def IsoReply.approved (r : IsoReply) : Bool := r.mti = "0210" ∧ r.pairs.lookup "39" = some "00"

def panOf (fields : Fields) : String := (fields "2").getD ((fields "pan").getD "")

def amountOf (fields : Fields) : Number := number ((fields "4").getD ((fields "amount").getD "0"))

def dispatch (switchProfile : IsoSwitchId) (h : HostEmulatorService) (now : Int) (authCode : String)
    (mti : String) (fields : Fields) : IsoReply × HostEmulatorService :=
  let profile := getSwitchById switchProfile
  if mti = "0100" then
    (⟨"0110", [("39", (authenticate h.db now (panOf fields)).responseCode),
      ("switch", profile.id.text)]⟩, h)
  else if mti = "0200" then
    let sessionId := (fields "session").getD ("tcp-" ++ toString now)
    let (r, h) := authorizeWithdrawal h now authCode
      ⟨panOf fields, amountOf fields, sessionId, some profile⟩
    (⟨"0210", [("39", r.responseCode), ("stan", r.stanNo), ("auth", r.authCode.getD ""),
      ("switch", profile.id.text)]⟩, h)
  else if mti = "0400" then (⟨"0410", [("39", "00"), ("switch", profile.id.text)]⟩, h)
  else if mti = "0800" then
    (⟨"0810", [("39", "00"), ("switch", profile.id.text), ("alive", "true")]⟩, h)
  else (⟨"0810", [("39", "12"), ("reason", "unsupported MTI " ++ mti)]⟩, h)

def mtiOf (body : String) : String := String.ofList (body.toList.take 4)

def fieldsOf (body : String) : Fields := parseSimpleFields (body.toList.drop 4)

def handleMessage (switchProfile : IsoSwitchId) (h : HostEmulatorService) (now : Int)
    (authCode body : String) : IsoReply × HostEmulatorService :=
  dispatch switchProfile h now authCode (mtiOf body) (fieldsOf body)

/-- A JavaScript value; a number is kept as the text `String` writes for it. -/
inductive Value where
  | undefined
  | null
  | bool (b : Bool)
  | num (text : String)
  | str (s : String)
  | arr (items : List Value)
  | obj (members : List (String × Value))

namespace Value

def truthy : Value → Bool
  | undefined => false
  | null => false
  | bool b => b
  | num text => text ≠ "0" ∧ text ≠ "NaN"
  | str s => s ≠ ""
  | arr _ => true
  | obj _ => true

def isObject : Value → Bool
  | arr _ => true
  | obj _ => true
  | _ => false

def get : Value → String → Value
  | obj members, key => (members.lookup key).getD undefined
  | _, _ => undefined

end Value

def pickCdtTrfTxInf (parsed : Value) : Option Value :=
  let doc := parsed.get "Document"
  let fi := doc.get "FIToFICstmrCdtTrf"
  let cdt := fi.get "CdtTrfTxInf"
  if ¬ (doc.truthy ∧ fi.truthy ∧ cdt.truthy ∧ cdt.isObject) then none
  else
    match cdt with
    | .arr [] => none
    | .arr (.undefined :: _) => none
    | .arr (.null :: _) => none
    | .arr (first :: _) => some first
    | cdt => some cdt

def nestedString : Value → List String → Option String
  | cur, key :: path =>
    if cur.truthy ∧ cur.isObject then nestedString (cur.get key) path else none
  | .str s, [] => some s
  | .num text, [] => some text
  | .obj members, [] =>
    match members.lookup "#text" with
    | some (.str t) => some t
    | some (.num t) => some t
    | _ => none
  | _, [] => none

inductive TxSts where
  | acsc | rjct | pdng
  deriving DecidableEq

/-- What `buildPacs002` writes into the response document. -/
structure Pacs002 where
  endToEndId : String
  status : TxSts
  statusReason : Option String
  statusReasonText : String
  deriving DecidableEq

def mapResponseCodeToReason (code : String) : String :=
  if code = "14" then "AC01"
  else if code = "51" then "AM04"
  else if code = "54" then "AC04"
  else if code = "55" then "AM05"
  else if code = "61" then "AM01"
  else if code = "62" then "AC06"
  else if code = "91" then "AGNT"
  else "NARR"

def debtorOf (cdtInfo : Value) : String :=
  (nestedString cdtInfo ["DbtrAcct", "Id", "Othr", "Id"]).getD ""

def settlementOf (cdtInfo : Value) : Number :=
  ((nestedString cdtInfo ["IntrBkSttlmAmt"]).map number).getD (.ofInt 0)

def statusReport (endToEndId : String) (r : AuthorizationResult) : Pacs002 :=
  if r.approved then
    ⟨endToEndId, .acsc, none, "Authorized via " ++ r.switchName ++ " stan=" ++ r.stanNo ++
      " auth=" ++ r.authCode.getD ""⟩
  else
    ⟨endToEndId, .rjct, some (mapResponseCodeToReason r.responseCode), "Declined via " ++
      r.switchName ++ " (responseCode=" ++ r.responseCode ++ "): " ++ r.reason.getD "unknown"⟩

/-- The answer to a document; no answer when the parser throws. -/
def handlePacs008 (parse : String → Option Value) (switchProfile : IsoSwitchId)
    (h : HostEmulatorService) (now : Int) (authCode xml : String) :
    Option Pacs002 × HostEmulatorService :=
  match parse xml with
  | none => (none, h)
  | some parsed =>
    match (pickCdtTrfTxInf parsed).filter Value.truthy with
    | none =>
      (some ⟨"unknown", .rjct, some "NARR", "Unable to locate CdtTrfTxInf in pacs.008"⟩, h)
    | some cdtInfo =>
      let endToEndId :=
        (nestedString cdtInfo ["PmtId", "EndToEndId"]).getD ("e2e-" ++ toString now)
      if debtorOf cdtInfo = "" then
        (some ⟨endToEndId, .rjct, some "AC01", "Debtor account missing"⟩, h)
      else
        let (r, h) := authorizeWithdrawal h now authCode ⟨debtorOf cdtInfo, settlementOf cdtInfo,
          "pacs008-" ++ endToEndId, some (getSwitchById switchProfile)⟩
        (some (statusReport endToEndId r), h)

/-- A message on one of the two listeners, with the switch the listener is configured for. -/
inductive Inbound where
  | iso8583 (switchProfile : IsoSwitchId) (body : String)
  | pacs008 (switchProfile : IsoSwitchId) (xml : String)

/-- Whether the message is answered as approved, and the service after it. -/
def receive (parse : String → Option Value) (h : HostEmulatorService) (now : Int)
    (authCode : String) : Inbound → Bool × HostEmulatorService
  | .iso8583 switchProfile body =>
    let (r, h) := handleMessage switchProfile h now authCode body
    (r.approved, h)
  | .pacs008 switchProfile xml =>
    let (r, h) := handlePacs008 parse switchProfile h now authCode xml
    (r.any fun r => r.status = .acsc, h)

/-- The PAN and the amount of the withdrawal a message asks for, if it asks for one. -/
def Inbound.withdrawal? (parse : String → Option Value) : Inbound → Option (String × Number)
  | .iso8583 _ body =>
    if mtiOf body = "0200" then some (panOf (fieldsOf body), amountOf (fieldsOf body)) else none
  | .pacs008 _ xml =>
    (parse xml).bind fun parsed =>
      ((pickCdtTrfTxInf parsed).filter Value.truthy).bind fun cdtInfo =>
      if debtorOf cdtInfo = "" then none else some (debtorOf cdtInfo, settlementOf cdtInfo)

/-- An approved message has debited one account by its amount; no message raises a balance or
records a COMPLETED withdrawal of nothing or less. -/
structure Proper (asked : Option (String × Number)) (approved : Bool) (db db' : Db) : Prop where
  debited : approved = true → ∃ pan n accountId account, asked = some (pan, .ofInt n) ∧ 0 < n ∧
    db.accounts accountId = some account ∧
    db'.accounts = Function.update db.accounts accountId (some { account with
      balance := account.balance - n
      dailyWithdrawn := account.dailyWithdrawn + n })
  noGain : ∀ accountId account account', db.accounts accountId = some account →
    db'.accounts accountId = some account' → account'.balance ≤ account.balance
  recorded : ∃ rows, db'.transactions = db.transactions ++ rows ∧ ∀ row ∈ rows,
    row.status = .completed → row.txnType = .withdrawal → 0 < row.amount

/-- The checks of a withdrawal let a whole amount of zero or less through. -/
def LetsThrough (db : Db) (now : Int) (pan : String) (amount : Number) : Prop :=
  ∃ n card account, n ≤ 0 ∧ amount = .ofInt n ∧ db.cards pan = some card ∧
    db.accounts card.accountId = some account ∧
    (Number.ofBigInt account.balance).lt (.ofInt n) = false ∧
    exceedsLimit account.dailyLimit
      (dailyTotal db.transactions card.accountId (startOfDay now)) (.ofInt n) = false ∧
    isInt8 n = true ∧ isInt8 (account.balance - n) = true ∧
    isInt8 (account.dailyWithdrawn + n) = true

theorem proper_unchanged (asked : Option (String × Number)) (db : Db) :
    Proper asked false db db := by
  refine ⟨?_, ?_, [], by simp, by simp⟩
  · intro h
    cases h
  · intro accountId account account' hold hnew
    cases hold.symm.trans hnew
    exact le_rfl

/-- An approved withdrawal of a positive amount has done what it says. -/
theorem proper_approved {db moved : Db} {now : Int} {authCode stanNo : String}
    {sw : IsoSwitchProfile} {p : WithdrawalParams} {card : VirtualCard} {account : Account}
    {n : Int} (h : Approval db now authCode stanNo sw p card account n moved) (hpos : 0 < n) :
    Proper (some (p.pan, p.amount)) true db
      (moved.create (withdrawalRow p card.accountId n now stanNo authCode)) := by
  obtain ⟨owner, howner, haccounts, -, htxns⟩ := moveBalance_spec h.paid
  cases h.owned.symm.trans howner
  have hdebit : moved.accounts = Function.update db.accounts card.accountId (some { account with
      balance := account.balance - n
      dailyWithdrawn := account.dailyWithdrawn + n }) := by
    rw [haccounts, sub_neg_eq_add, sub_eq_add_neg]
  refine ⟨?_, ?_, [withdrawalRow p card.accountId n now stanNo authCode], ?_, ?_⟩
  · intro _
    exact ⟨p.pan, n, card.accountId, account, by rw [h.whole], hpos, h.owned, hdebit⟩
  · intro accountId old new hold hnew
    simp only [Db.create, hdebit] at hnew
    by_cases heq : accountId = card.accountId
    · subst heq
      rw [Function.update_self] at hnew
      cases hnew
      cases h.owned.symm.trans hold
      show account.balance - n ≤ account.balance
      omega
    · rw [Function.update_of_ne heq] at hnew
      cases hold.symm.trans hnew
      exact le_rfl
  · simp only [Db.create, htxns]
  · intro row hrow _ _
    cases List.mem_singleton.mp hrow
    exact hpos

/-- The withdrawal behind a message is proper exactly when its checks stop the amounts of zero or
less. -/
theorem proper_authorize_iff (h : HostEmulatorService) (now : Int) (authCode sessionId pan : String)
    (amount : Number) {sw : IsoSwitchProfile} (hcap : 0 ≤ sw.maxWithdrawalIdr) :
    Proper (some (pan, amount))
        (authorizeWithdrawal h now authCode ⟨pan, amount, sessionId, some sw⟩).1.approved h.db
        (authorizeWithdrawal h now authCode ⟨pan, amount, sessionId, some sw⟩).2.db ↔
      ¬ LetsThrough h.db now pan amount := by
  constructor
  · intro hproper hlets
    obtain ⟨n, card, account, hn, hwhole, hcard, haccount, hfunds, hlimit, hrange⟩ := hlets
    obtain ⟨moved, hmoved⟩ := (Db.debit_isSome haccount).mpr hrange
    have happroval : Approval h.db now authCode (formatStan h.stanCounter) sw
        ⟨pan, amount, sessionId, some sw⟩ card account n moved :=
      ⟨hcard, haccount, hwhole, by omega, hfunds, hlimit, hmoved⟩
    obtain ⟨r, happroved, -, htx⟩ := authorizeTx_of_approval happroval
    have hyes : (authorizeWithdrawal h now authCode
        ⟨pan, amount, sessionId, some sw⟩).1.approved = true := by
      simp [authorizeWithdrawal, htx, happroved]
    obtain ⟨pan', m, -, -, hasked, hpos, -⟩ := hproper.debited hyes
    rw [Option.some.injEq, Prod.mk.injEq, hwhole, Number.ofInt_inj] at hasked
    omega
  · intro hno
    rcases authorizeWithdrawal_cases h now authCode ⟨pan, amount, sessionId, some sw⟩ with
      ⟨hdeclined, -, hdb⟩ | ⟨happroved, -, card, account, n, moved, happroval, hdb⟩
    · rw [hdeclined, hdb]
      exact proper_unchanged _ h.db
    · rw [happroved, hdb]
      apply proper_approved happroval
      by_contra hle
      exact hno ⟨n, card, account, not_lt.mp hle, happroval.whole, happroval.found,
        happroval.owned, happroval.funds, happroval.limit,
        (Db.debit_isSome happroval.owned).mp ⟨moved, happroval.paid⟩⟩

theorem maxWithdrawalIdr_nonneg (id : IsoSwitchId) : 0 ≤ (getSwitchById id).maxWithdrawalIdr := by
  cases id <;> decide

theorem approved_iff_code (h : HostEmulatorService) (now : Int) (authCode : String)
    (p : WithdrawalParams) :
    decide ((authorizeWithdrawal h now authCode p).1.responseCode = "00") =
      (authorizeWithdrawal h now authCode p).1.approved := by
  rcases authorizeWithdrawal_cases h now authCode p with ⟨hno, hcode, -⟩ | ⟨hyes, hcode, -⟩
  · rw [hno, decide_eq_false hcode]
  · rw [hyes, decide_eq_true hcode]

/-- An MTI 0200 frame is answered as approved exactly when its withdrawal is. -/
theorem receive_financial (parse : String → Option Value) (h : HostEmulatorService) (now : Int)
    (authCode : String) (switchProfile : IsoSwitchId) {body : String} (hmti : mtiOf body = "0200") :
    ∃ sessionId, receive parse h now authCode (.iso8583 switchProfile body) =
      ((authorizeWithdrawal h now authCode ⟨panOf (fieldsOf body), amountOf (fieldsOf body),
          sessionId, some (getSwitchById switchProfile)⟩).1.approved,
        (authorizeWithdrawal h now authCode ⟨panOf (fieldsOf body), amountOf (fieldsOf body),
          sessionId, some (getSwitchById switchProfile)⟩).2) := by
  refine ⟨((fieldsOf body) "session").getD ("tcp-" ++ toString now), ?_⟩
  rw [← approved_iff_code]
  simp [receive, handleMessage, dispatch, hmti, IsoReply.approved]

theorem receive_other (parse : String → Option Value) (h : HostEmulatorService) (now : Int)
    (authCode : String) (switchProfile : IsoSwitchId) {body : String} (hmti : mtiOf body ≠ "0200") :
    receive parse h now authCode (.iso8583 switchProfile body) = (false, h) := by
  simp only [receive, handleMessage, dispatch, hmti, if_false]
  split
  · rfl
  · split
    · rfl
    · split <;> rfl

/-- A document is declined with the tables untouched, or answered as its withdrawal is. -/
theorem receive_pacs008 (parse : String → Option Value) (h : HostEmulatorService) (now : Int)
    (authCode : String) (switchProfile : IsoSwitchId) (xml : String) :
    (Inbound.withdrawal? parse (.pacs008 switchProfile xml) = none ∧
      receive parse h now authCode (.pacs008 switchProfile xml) = (false, h)) ∨
    ∃ pan amount sessionId,
      Inbound.withdrawal? parse (.pacs008 switchProfile xml) = some (pan, amount) ∧
      receive parse h now authCode (.pacs008 switchProfile xml) =
        ((authorizeWithdrawal h now authCode
            ⟨pan, amount, sessionId, some (getSwitchById switchProfile)⟩).1.approved,
          (authorizeWithdrawal h now authCode
            ⟨pan, amount, sessionId, some (getSwitchById switchProfile)⟩).2) := by
  cases hparse : parse xml with
  | none =>
    exact .inl ⟨by simp [Inbound.withdrawal?, hparse], by simp [receive, handlePacs008, hparse]⟩
  | some parsed =>
    cases hpick : (pickCdtTrfTxInf parsed).filter Value.truthy with
    | none =>
      exact .inl ⟨by simp [Inbound.withdrawal?, hparse, hpick],
        by simp [receive, handlePacs008, hparse, hpick]⟩
    | some cdtInfo =>
      by_cases hpan : debtorOf cdtInfo = ""
      · exact .inl ⟨by simp [Inbound.withdrawal?, hparse, hpick, hpan],
          by simp [receive, handlePacs008, hparse, hpick, hpan]⟩
      · refine .inr ⟨debtorOf cdtInfo, settlementOf cdtInfo, "pacs008-" ++
          (nestedString cdtInfo ["PmtId", "EndToEndId"]).getD ("e2e-" ++ toString now),
          by simp [Inbound.withdrawal?, hparse, hpick, hpan], ?_⟩
        simp only [receive, handlePacs008, hparse, hpick, hpan, if_false, Option.any_some,
          statusReport]
        split <;> simp_all

/-- For every message on either listener: the answer is proper exactly when the message asks for no
withdrawal of zero or less that the checks let through. -/
theorem receive_proper_iff (parse : String → Option Value) (h : HostEmulatorService) (now : Int)
    (authCode : String) (message : Inbound) :
    Proper (message.withdrawal? parse) (receive parse h now authCode message).1 h.db
        (receive parse h now authCode message).2.db ↔
      ∀ pan amount, message.withdrawal? parse = some (pan, amount) →
        ¬ LetsThrough h.db now pan amount := by
  cases message with
  | iso8583 switchProfile body =>
    by_cases hmti : mtiOf body = "0200"
    · obtain ⟨sessionId, hreceive⟩ := receive_financial parse h now authCode switchProfile hmti
      simp only [hreceive, Inbound.withdrawal?, hmti, if_true, Option.some.injEq, Prod.mk.injEq,
        and_imp, forall_eq', forall_apply_eq_imp_iff]
      exact proper_authorize_iff h now authCode sessionId _ _ (maxWithdrawalIdr_nonneg _)
    · rw [receive_other parse h now authCode switchProfile hmti]
      simp only [Inbound.withdrawal?, hmti, if_false, reduceCtorEq, false_imp_iff, implies_true,
        iff_true]
      exact proper_unchanged none h.db
  | pacs008 switchProfile xml =>
    rcases receive_pacs008 parse h now authCode switchProfile xml with
      ⟨hnone, hreceive⟩ | ⟨pan, amount, sessionId, hsome, hreceive⟩
    · rw [hreceive, hnone]
      simp only [reduceCtorEq, false_imp_iff, implies_true, iff_true]
      exact proper_unchanged none h.db
    · rw [hreceive, hsome]
      simp only [Option.some.injEq, Prod.mk.injEq, and_imp, forall_eq', forall_apply_eq_imp_iff]
      exact proper_authorize_iff h now authCode sessionId _ _ (maxWithdrawalIdr_nonneg _)

/-- A negative amount in field 4 is approved and raises the balance. -/
theorem receive_not_proper :
    ¬ Proper (Inbound.withdrawal? (fun _ => none) (.iso8583 .jalin "0200|2=4580|4=-100000"))
      (receive (fun _ => none) oneAccount 0 "123456"
        (.iso8583 .jalin "0200|2=4580|4=-100000")).1 oneAccount.db
      (receive (fun _ => none) oneAccount 0 "123456"
        (.iso8583 .jalin "0200|2=4580|4=-100000")).2.db := by
  intro hproper
  have hgain := hproper.noGain "ACC" ⟨500000, 10000000, 0, .active⟩
    ⟨600000, 10000000, -100000, .active⟩ rfl (by decide +kernel)
  exact absurd hgain (by decide)

end AtmXfs.Host
