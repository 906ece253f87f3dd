import AtmXfs.Host.Interleaved
import AtmXfs.Host.Transport

namespace AtmXfs.Host

open Js

/-- What is sent back for a message; a document that the parser throws on has no report. -/
inductive ListenerAnswer where
  | iso8583 (r : IsoReply)
  | pacs008 (r : Option Pacs002)

/-- A message with the time and the authorization code it is handled with. -/
structure Received where
  now : Int
  authCode : String
  message : Inbound

section
variable (parse : String → Option Value)

def respond (h : HostEmulatorService) (c : Received) : ListenerAnswer × HostEmulatorService :=
  match c.message with
  | .iso8583 switchProfile body =>
    let (r, h) := handleMessage switchProfile h c.now c.authCode body
    (.iso8583 r, h)
  | .pacs008 switchProfile xml =>
    let (r, h) := handlePacs008 parse switchProfile h c.now c.authCode xml
    (.pacs008 r, h)

/-- The messages of both listeners, one after the other. -/
def serve : HostEmulatorService → List Received → List ListenerAnswer × HostEmulatorService
  | h, [] => ([], h)
  | h, c :: cs =>
    let (a, h) := respond parse h c
    let (rest, h) := serve h cs
    (a :: rest, h)

/-- The answer that approves a withdrawal, with what it says of the row. -/
def Approves (session stan auth : String) : Inbound → ListenerAnswer → Prop
  | .iso8583 switchProfile _, .iso8583 r =>
    r = ⟨"0210", [("39", "00"), ("stan", stan), ("auth", auth),
      ("switch", (getSwitchById switchProfile).id.text)]⟩
  | .pacs008 switchProfile _, .pacs008 r =>
    ∃ endToEndId, session = "pacs008-" ++ endToEndId ∧
      r = some ⟨endToEndId, .acsc, none, "Authorized via " ++ (getSwitchById switchProfile).name ++
        " stan=" ++ stan ++ " auth=" ++ auth⟩
  | _, _ => False

/-- The answer tells of the row: it is the withdrawal that the message asks for, on the account of
its card. -/
structure Tells (cards : String → Option VirtualCard) (c : Received) (a : ListenerAnswer)
    (row : Transaction) : Prop where
  asked : c.message.withdrawal? parse = some (row.pan, .ofInt row.amount)
  card : (cards row.pan).map VirtualCard.accountId = some row.accountId
  booked : row.txnType = .withdrawal ∧ row.status = .completed ∧ row.createdAt = c.now
  answer : ∃ stan auth, row.stanNo = some stan ∧ row.authCode = some auth ∧
    Approves row.sessionId stan auth c.message a

/-- The answer approves nothing; a report gives one of four reasons. -/
def Refuses : ListenerAnswer → Prop
  | .iso8583 r => r.approved = false
  | .pacs008 none => True
  | .pacs008 (some r) => r.status = .rjct ∧
      ∃ reason ∈ ["AC01", "AM01", "AM04", "NARR"], r.statusReason = some reason

def Outcome (cards : String → Option VirtualCard) (c : Received) (a : ListenerAnswer) :
    Option Transaction → Prop
  | some row => Tells parse cards c a row
  | none => Refuses a

end

/-- What a refusal says, whichever of its codes it gives. -/
theorem declined_answer (sw : IsoSwitchProfile) (stanNo reason authCode : String) {code : String}
    {codes : List String} (hcode : code ∈ codes) :
    let r := declined sw stanNo code reason
    r.stanNo = stanNo ∧ r.switchName = sw.name ∧
      (r.approved = true → r.authCode = some authCode) ∧
      (r.approved = false → r.responseCode ∈ codes) :=
  ⟨rfl, rfl, fun hyes => absurd hyes Bool.false_ne_true, fun _ => hcode⟩

/-- What the database transaction of a withdrawal answers. -/
theorem authorizeTx_answer {db db' : Db} {now : Int} {authCode stanNo : String}
    {sw : IsoSwitchProfile} {p : WithdrawalParams} {r : AuthorizationResult}
    (h : authorizeTx db now authCode stanNo sw p = some (r, db')) :
    r.stanNo = stanNo ∧ r.switchName = sw.name ∧
      (r.approved = true → r.authCode = some authCode) ∧
      (r.approved = false → r.responseCode ∈ ["14", "51", "56", "61"]) := by
  unfold authorizeTx at h
  split at h
  · cases h
    exact declined_answer _ _ _ _ (by decide)
  · split at h
    · cases h
      exact declined_answer _ _ _ _ (by decide)
    · split at h
      · cases h
        exact declined_answer _ _ _ _ (by decide)
      · split at h
        · cases h
          exact declined_answer _ _ _ _ (by decide)
        · split at h
          · cases h
            exact declined_answer _ _ _ _ (by decide)
          · split at h
            · cases h
              exact declined_answer _ _ _ _ (by decide)
            · split at h
              · cases h
              · split at h
                · cases h
                · cases h
                  exact ⟨rfl, rfl, fun _ => rfl, fun hno => absurd hno.symm Bool.false_ne_true⟩

theorem authorizeWithdrawal_answer (h : HostEmulatorService) (now : Int) (authCode : String)
    (p : WithdrawalParams) :
    let r := (authorizeWithdrawal h now authCode p).1
    r.stanNo = formatStan h.stanCounter ∧
      r.switchName = (p.switchProfile.getD (getSwitchByPan p.pan)).name ∧
      (r.approved = true → r.authCode = some authCode) ∧
      (r.approved = false → r.responseCode ∈ ["14", "51", "56", "61", "96"]) := by
  unfold authorizeWithdrawal
  simp only
  split
  · next r db htx =>
    obtain ⟨hstan, hswitch, hauth, hcode⟩ := authorizeTx_answer htx
    refine ⟨hstan, hswitch, hauth, fun hno => ?_⟩
    have hfour := hcode hno
    simp only [List.mem_cons, List.not_mem_nil, or_false] at hfour ⊢
    tauto
  · exact declined_answer _ _ _ _ (by decide)

theorem reason_of_code {code : String} (h : code ∈ ["14", "51", "56", "61", "96"]) :
    mapResponseCodeToReason code ∈ ["AC01", "AM01", "AM04", "NARR"] := by
  simp only [List.mem_cons, List.not_mem_nil, or_false] at h
  rcases h with rfl | rfl | rfl | rfl | rfl <;> decide

/-- The accounts are the old ones, moved by what the rows say. -/
def SettledBy (db db' : Db) (rows : List Transaction) : Prop :=
  db'.cards = db.cards ∧ db'.transactions = db.transactions ++ rows ∧
    ∀ accountId, db'.accounts accountId =
      (db.accounts accountId).map fun account => account.moved (booked rows accountId)

theorem settledBy_refl (db : Db) : SettledBy db db [] := by
  refine ⟨rfl, (List.append_nil _).symm, fun accountId => ?_⟩
  cases db.accounts accountId with
  | none => rfl
  | some account =>
    rw [Option.map_some, booked, List.map_nil, List.sum_nil, Account.moved_zero]

theorem SettledBy.trans {db db' db'' : Db} {rows rows' : List Transaction}
    (h : SettledBy db db' rows) (h' : SettledBy db' db'' rows') :
    SettledBy db db'' (rows ++ rows') := by
  obtain ⟨hcards, htransactions, haccounts⟩ := h
  obtain ⟨hcards', htransactions', haccounts'⟩ := h'
  refine ⟨hcards'.trans hcards, ?_, fun accountId => ?_⟩
  · rw [htransactions', htransactions, List.append_assoc]
  · rw [haccounts', haccounts, Option.map_map]
    congr 1
    funext account
    rw [Function.comp_apply, Account.moved_moved, booked_append]

/-- A withdrawal leaves the tables alone, or is one row that says what it did. -/
theorem authorizeWithdrawal_settled (h : HostEmulatorService) (now : Int) (authCode : String)
    (p : WithdrawalParams) :
    ((authorizeWithdrawal h now authCode p).1.approved = false ∧
      SettledBy h.db (authorizeWithdrawal h now authCode p).2.db []) ∨
    ((authorizeWithdrawal h now authCode p).1.approved = true ∧ ∃ card amount,
      h.db.cards p.pan = some card ∧ p.amount = .ofInt amount ∧
      SettledBy h.db (authorizeWithdrawal h now authCode p).2.db [withdrawalRow p card.accountId
        amount now (formatStan h.stanCounter) authCode]) := by
  rcases authorizeWithdrawal_cases h now authCode p with
    ⟨hno, -, hdb⟩ | ⟨hyes, -, card, account, amount, moved, happroval, hdb⟩
  · exact .inl ⟨hno, hdb ▸ settledBy_refl h.db⟩
  · obtain ⟨owner, howner, haccounts, hcards, htransactions⟩ := moveBalance_spec happroval.paid
    refine .inr ⟨hyes, card, amount, happroval.found, happroval.whole, ?_, ?_, fun accountId => ?_⟩
    · rw [hdb]
      exact hcards
    · rw [hdb, Db.create, htransactions]
    · rw [hdb, Db.create, haccounts]
      by_cases heq : accountId = card.accountId
      · subst heq
        rw [Function.update_self, howner, Option.map_some]
        simp [booked, withdrawalRow, Transaction.booked, Account.moved]
      · rw [Function.update_of_ne heq]
        have hnone : booked [withdrawalRow p card.accountId amount now (formatStan h.stanCounter)
            authCode] accountId = 0 := by
          simp [booked, withdrawalRow, Ne.symm heq]
        rw [hnone]
        cases h.db.accounts accountId with
        | none => rfl
        | some account => rw [Option.map_some, Account.moved_zero]

section
variable {parse : String → Option Value}

/-- The outcome of a message that is answered as its withdrawal is. -/
theorem outcome_of_withdrawal (h : HostEmulatorService) (c : Received) (p : WithdrawalParams)
    {a : ListenerAnswer} (hasked : c.message.withdrawal? parse = some (p.pan, p.amount))
    (hyes : (authorizeWithdrawal h c.now c.authCode p).1.approved = true →
      Approves p.sessionId (formatStan h.stanCounter) c.authCode c.message a)
    (hno : (authorizeWithdrawal h c.now c.authCode p).1.approved = false → Refuses a) :
    ∃ outcome, Outcome parse h.db.cards c a outcome ∧
      SettledBy h.db (authorizeWithdrawal h c.now c.authCode p).2.db outcome.toList := by
  rcases authorizeWithdrawal_settled h c.now c.authCode p with
    ⟨hdeclined, hsettled⟩ | ⟨happroved, card, amount, hcard, hamount, hsettled⟩
  · exact ⟨none, hno hdeclined, hsettled⟩
  · rw [hamount] at hasked
    exact ⟨some _, ⟨hasked, congrArg (Option.map VirtualCard.accountId) hcard, ⟨rfl, rfl, rfl⟩,
      _, _, rfl, rfl, hyes happroved⟩, hsettled⟩

theorem respond_financial (h : HostEmulatorService) (now : Int) (authCode : String)
    (switchProfile : IsoSwitchId) {body : String} (hmti : mtiOf body = "0200") :
    ∃ outcome, Outcome parse h.db.cards ⟨now, authCode, .iso8583 switchProfile body⟩
        (respond parse h ⟨now, authCode, .iso8583 switchProfile body⟩).1 outcome ∧
      SettledBy h.db (respond parse h ⟨now, authCode, .iso8583 switchProfile body⟩).2.db
        outcome.toList := by
  obtain ⟨p, hp⟩ : ∃ p : WithdrawalParams, p = ⟨panOf (fieldsOf body), amountOf (fieldsOf body),
    ((fieldsOf body) "session").getD ("tcp-" ++ toString now),
    some (getSwitchById switchProfile)⟩ := ⟨_, rfl⟩
  have hrespond : respond parse h ⟨now, authCode, .iso8583 switchProfile body⟩ =
      (.iso8583 ⟨"0210", [("39", (authorizeWithdrawal h now authCode p).1.responseCode),
        ("stan", (authorizeWithdrawal h now authCode p).1.stanNo),
        ("auth", (authorizeWithdrawal h now authCode p).1.authCode.getD ""),
        ("switch", (getSwitchById switchProfile).id.text)]⟩,
        (authorizeWithdrawal h now authCode p).2) := by
    simp [respond, handleMessage, dispatch, hmti, hp]
  obtain ⟨hstan, -, hauth, -⟩ := authorizeWithdrawal_answer h now authCode p
  have hcode := approved_iff_code h now authCode p
  rw [hrespond]
  apply outcome_of_withdrawal h ⟨now, authCode, .iso8583 switchProfile body⟩ p
  · rw [Inbound.withdrawal?, if_pos hmti, hp]
  · intro hyes
    rw [hyes, decide_eq_true_eq] at hcode
    simp only [Approves, hcode, hstan, hauth hyes, Option.getD_some]
  · intro hno
    rw [hno, decide_eq_false_iff_not] at hcode
    simp [Refuses, IsoReply.approved, hcode]

theorem respond_other (h : HostEmulatorService) (now : Int) (authCode : String)
    (switchProfile : IsoSwitchId) {body : String} (hmti : mtiOf body ≠ "0200") :
    Refuses (respond parse h ⟨now, authCode, .iso8583 switchProfile body⟩).1 ∧
      SettledBy h.db (respond parse h ⟨now, authCode, .iso8583 switchProfile body⟩).2.db [] := by
  obtain ⟨hno, hsame⟩ := Prod.ext_iff.mp
    (receive_other (fun _ => none) h now authCode switchProfile hmti)
  simp only [receive] at hno hsame
  exact ⟨hno, by rw [respond, hsame]; exact settledBy_refl h.db⟩

theorem respond_pacs008 (h : HostEmulatorService) (now : Int) (authCode : String)
    (switchProfile : IsoSwitchId) (xml : String) :
    ∃ outcome, Outcome parse h.db.cards ⟨now, authCode, .pacs008 switchProfile xml⟩
        (respond parse h ⟨now, authCode, .pacs008 switchProfile xml⟩).1 outcome ∧
      SettledBy h.db (respond parse h ⟨now, authCode, .pacs008 switchProfile xml⟩).2.db
        outcome.toList := by
  cases hparse : parse xml with
  | none =>
    refine ⟨none, ?_, ?_⟩
    · simp [respond, handlePacs008, hparse, Outcome, Refuses]
    · simp only [respond, handlePacs008, hparse]
      exact settledBy_refl h.db
  | some parsed =>
    cases hpick : (pickCdtTrfTxInf parsed).filter Value.truthy with
    | none =>
      refine ⟨none, ?_, ?_⟩
      · simp [respond, handlePacs008, hparse, hpick, Outcome, Refuses]
      · simp only [respond, handlePacs008, hparse, hpick]
        exact settledBy_refl h.db
    | some cdtInfo =>
      by_cases hpan : debtorOf cdtInfo = ""
      · refine ⟨none, ?_, ?_⟩
        · simp [respond, handlePacs008, hparse, hpick, hpan, Outcome, Refuses]
        · simp only [respond, handlePacs008, hparse, hpick, hpan, if_true]
          exact settledBy_refl h.db
      · obtain ⟨endToEndId, hid⟩ : ∃ id, id =
            (nestedString cdtInfo ["PmtId", "EndToEndId"]).getD ("e2e-" ++ toString now) :=
          ⟨_, rfl⟩
        obtain ⟨p, hp⟩ : ∃ p : WithdrawalParams, p = ⟨debtorOf cdtInfo, settlementOf cdtInfo,
          "pacs008-" ++ endToEndId, some (getSwitchById switchProfile)⟩ := ⟨_, rfl⟩
        have hrespond : respond parse h ⟨now, authCode, .pacs008 switchProfile xml⟩ =
            (.pacs008 (some (statusReport endToEndId (authorizeWithdrawal h now authCode p).1)),
              (authorizeWithdrawal h now authCode p).2) := by
          simp [respond, handlePacs008, hparse, hpick, hpan, hp, hid]
        obtain ⟨hstan, hswitch, hauth, hcode⟩ := authorizeWithdrawal_answer h now authCode p
        rw [hrespond]
        apply outcome_of_withdrawal h ⟨now, authCode, .pacs008 switchProfile xml⟩ p
        · simp only [Inbound.withdrawal?, hparse, Option.bind_some, hpick, hpan, if_false, hp]
        · intro hyes
          have hprofile : (p.switchProfile.getD (getSwitchByPan p.pan)).name =
              (getSwitchById switchProfile).name := by rw [hp, Option.getD_some]
          refine ⟨endToEndId, by rw [hp], ?_⟩
          rw [statusReport, if_pos hyes, hswitch, hprofile, hstan, hauth hyes, Option.getD_some]
        · intro hno
          rw [statusReport, hno, if_neg (by decide)]
          exact ⟨rfl, _, reason_of_code (hcode hno), rfl⟩

end

/-- A message is answered with the row that was booked for it, or with a refusal when there is
none. -/
theorem respond_spec (parse : String → Option Value) (h : HostEmulatorService) (c : Received) :
    ∃ outcome, Outcome parse h.db.cards c (respond parse h c).1 outcome ∧
      SettledBy h.db (respond parse h c).2.db outcome.toList := by
  obtain ⟨now, authCode, message⟩ := c
  cases message with
  | iso8583 switchProfile body =>
    by_cases hmti : mtiOf body = "0200"
    · exact respond_financial h now authCode switchProfile hmti
    · exact ⟨none, respond_other h now authCode switchProfile hmti⟩
  | pacs008 switchProfile xml => exact respond_pacs008 h now authCode switchProfile xml

end AtmXfs.Host
