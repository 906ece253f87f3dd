import AtmXfs.Atm.Session
import AtmXfs.Host.Cards
import AtmXfs.Lib.Runs
import Mathlib.Data.List.Infix

namespace AtmXfs

open Js Host Pin

/-- The service together with the tables of the host and the host's calls under way, known by the
task that awaits them. `pans` holds the card that a call of `retainCard` is made for, `verdicts` the
outcomes of `verifyPin`, newest first. -/
structure Site where
  atm : Atm
  accounts : String → Option Account
  cards : String → Option CardRow
  work : Nat → Option HostWork
  pans : Nat → String
  verdicts : List (String × Bool)

/-- A step of the service, a statement of a host call at time `now`, or the second one, whose answer
may get lost. -/
inductive SiteStep where
  | atm (a : AtmStep)
  | read (i : Nat) (now : Int)
  | write (i : Nat) (lost : Bool)

namespace Site

def init (accounts : String → Option Account) (cards : String → Option CardRow) : Site where
  atm := .init
  accounts := accounts
  cards := cards
  work _ := none
  pans _ := ""
  verdicts := []

def db (s : Site) : Db := ⟨s.accounts, fun pan => (s.cards pan).map CardRow.toVirtualCard, []⟩

def accountOf (s : Site) (pan : String) : String := ((s.cards pan).map (·.accountId)).getD ""

/-- A host call returns what the host has answered, and throws only where it has not. -/
def returns (s : Site) : AtmStep → Bool
  | .resume i reply =>
    match s.atm.tasks i, reply with
    | some ⟨.authenticated _ _, _⟩, .auth r => s.work i = some (.answered r)
    | some ⟨.pinVerified _ _ _, _⟩, .auth r => s.work i = some (.answered r)
    | some ⟨.authenticated _ _, _⟩, .throws => s.work i = none
    | some ⟨.pinVerified _ _ _, _⟩, .throws =>
      !(s.work i).any fun work => match work with | .answered _ => true | _ => false
    | some ⟨.retainMarked _, _⟩, .done => s.work i = some .written
    | _, _ => true
  | _ => true

/-- Tasks that are suspended now belong to the card of the current session. -/
def withAtm (s : Site) (t : Atm) : Site :=
  { s with
    atm := t
    pans := fun i =>
      if s.atm.nextTask ≤ i then (t.current.map AtmSession.cardPan).getD "" else s.pans i }

def read (sha256 : List Nat → List Char → List Nat) (s : Site) (i : Nat) (now : Int) :
    Option Site :=
  match s.atm.tasks i, s.work i with
  | some ⟨.authenticated _ pan, .pending⟩, none =>
    some { s with
      work := Function.update s.work i (some (.answered (authenticate s.db now pan))) }
  | some ⟨.pinVerified _ pan entered, .pending⟩, none =>
    some { s with
      work := Function.update s.work i (some (comparePin sha256 (s.cards pan) entered)) }
  | _, _ => none

def write (s : Site) (i : Nat) (lost : Bool) : Option Site :=
  match s.atm.tasks i, s.work i with
  | some ⟨.pinVerified _ pan _, .pending⟩, some (.compared ok) =>
    match (s.cards pan).bind fun row => settlePin row ok with
    | none => none
    | some (row, r) =>
      some { s with
        cards := Function.update s.cards pan (some row)
        work := Function.update s.work i (some (if lost then .lost else .answered r))
        verdicts := if lost then s.verdicts else (pan, r.success) :: s.verdicts }
  | some ⟨.retainMarked _, .pending⟩, none =>
    match s.cards (s.pans i) with
    | none => none
    | some row =>
      some { s with
        cards := Function.update s.cards (s.pans i) (some row.retained)
        work := Function.update s.work i (some .written) }
  | _, _ => none

end Site

def siteStep (sha256 : List Nat → List Char → List Nat) (s : Site) : SiteStep → Option Site
  | .atm a => if s.returns a then (atmStep s.accountOf s.atm a).map s.withAtm else none
  | .read i now => s.read sha256 i now
  | .write i lost => s.write i lost

/-- The outcomes of the verifications of one card. -/
def verdictsOf (verdicts : List (String × Bool)) (pan : String) : List Bool :=
  (verdicts.filter fun verdict => verdict.1 = pan).map Prod.snd

/-- Once three verifications of a card in a row have failed, none of them succeeds any more. -/
def lockedOut (verdict : String × Bool) (older : List (String × Bool)) : Prop :=
  verdict.2 = true → ¬ [false, false, false] <:+: verdictsOf older verdict.1

/-- The failures since the last success. -/
def failures (outcomes : List Bool) : Nat := (outcomes.takeWhile fun ok => !ok).length

/-- The counter of a card counts at least the failures since the last success, and three failures in
a row were not followed by one. -/
structure Tallied (s : Site) : Prop where
  counted : ∀ pan row, s.cards pan = some row →
    failures (verdictsOf s.verdicts pan) ≤ row.failedPinCount
  stays : ∀ pan, [false, false, false] <:+: verdictsOf s.verdicts pan →
    3 ≤ failures (verdictsOf s.verdicts pan)
  locked : Runs.Each lockedOut s.verdicts

@[simp] theorem verdictsOf_cons (verdict : String × Bool) (verdicts : List (String × Bool))
    (pan : String) : verdictsOf (verdict :: verdicts) pan =
      if verdict.1 = pan then verdict.2 :: verdictsOf verdicts pan
      else verdictsOf verdicts pan := by
  unfold verdictsOf
  by_cases hpan : verdict.1 = pan
  · simp [hpan]
  · simp [hpan]

@[simp] theorem failures_true (outcomes : List Bool) : failures (true :: outcomes) = 0 := rfl

@[simp] theorem failures_false (outcomes : List Bool) :
    failures (false :: outcomes) = failures outcomes + 1 := rfl

theorem three_le_failures {outcomes : List Bool}
    (h : [false, false, false] <+: outcomes) : 3 ≤ failures outcomes := by
  obtain ⟨rest, rfl⟩ := h
  simp only [List.cons_append, List.nil_append, failures_false]
  omega

/-- No outcome is added, and the counter of a card does not go down. -/
theorem Tallied.keep {s t : Site} (h : Tallied s) {pan : String} {row row' : CardRow}
    (hrow : s.cards pan = some row) (hcount : row.failedPinCount ≤ row'.failedPinCount)
    (hcards : t.cards = Function.update s.cards pan (some row'))
    (hverdicts : t.verdicts = s.verdicts) : Tallied t where
  counted other new hnew := by
    rw [hverdicts]
    by_cases hpan : other = pan
    · subst hpan
      rw [hcards, Function.update_self] at hnew
      cases hnew
      exact (h.counted other row hrow).trans hcount
    · rw [hcards, Function.update_of_ne hpan] at hnew
      exact h.counted other new hnew
  stays other hinfix := by
    rw [hverdicts] at hinfix ⊢
    exact h.stays other hinfix
  locked := hverdicts ▸ h.locked

/-- A failure is counted and comes on top of the ones before. -/
theorem Tallied.fail {s t : Site} (h : Tallied s) {pan : String} {row row' : CardRow}
    (hrow : s.cards pan = some row) (hcount : row'.failedPinCount = row.failedPinCount + 1)
    (hcards : t.cards = Function.update s.cards pan (some row'))
    (hverdicts : t.verdicts = (pan, false) :: s.verdicts) : Tallied t where
  counted other new hnew := by
    rw [hverdicts, verdictsOf_cons]
    by_cases hpan : other = pan
    · subst hpan
      rw [hcards, Function.update_self] at hnew
      cases hnew
      simpa [hcount] using h.counted other row hrow
    · rw [hcards, Function.update_of_ne hpan] at hnew
      simpa [Ne.symm hpan] using h.counted other new hnew
  stays other hinfix := by
    rw [hverdicts, verdictsOf_cons] at hinfix ⊢
    by_cases hpan : pan = other
    · simp only [hpan, if_true] at hinfix ⊢
      rcases List.infix_cons_iff.mp hinfix with hnow | hbefore
      · exact three_le_failures hnow
      · exact (h.stays other hbefore).trans (Nat.le_succ _)
    · simp only [hpan, if_false] at hinfix ⊢
      exact h.stays other hinfix
  locked := by
    rw [hverdicts]
    exact ⟨nofun, h.locked⟩

/-- With fewer than three failures counted there were no three in a row. -/
theorem Tallied.not_infix {s : Site} (h : Tallied s) {pan : String} {row : CardRow}
    (hrow : s.cards pan = some row) (hfew : row.failedPinCount < 3) :
    ¬ [false, false, false] <:+: verdictsOf s.verdicts pan := by
  intro hinfix
  have hthree := h.stays pan hinfix
  have hcounted := h.counted pan row hrow
  omega

theorem Tallied.succeed {s t : Site} (h : Tallied s) {pan : String} {row row' : CardRow}
    (hrow : s.cards pan = some row) (hfew : row.failedPinCount < 3)
    (hcards : t.cards = Function.update s.cards pan (some row'))
    (hverdicts : t.verdicts = (pan, true) :: s.verdicts) : Tallied t where
  counted other new hnew := by
    rw [hverdicts, verdictsOf_cons]
    by_cases hpan : pan = other
    · simp [hpan]
    · rw [hcards, Function.update_of_ne (Ne.symm hpan)] at hnew
      simpa [hpan] using h.counted other new hnew
  stays other hinfix := by
    rw [hverdicts, verdictsOf_cons] at hinfix ⊢
    by_cases hpan : pan = other
    · subst hpan
      simp only [if_true] at hinfix
      rcases List.infix_cons_iff.mp hinfix with hnow | hbefore
      · obtain ⟨rest, heq⟩ := hnow
        cases heq
      · exact absurd hbefore (h.not_infix hrow hfew)
    · simp only [hpan, if_false] at hinfix ⊢
      exact h.stays other hinfix
  locked := by
    rw [hverdicts]
    exact ⟨fun _ => h.not_infix hrow hfew, h.locked⟩

/-- The right PIN is accepted only for a card with fewer than three failures counted, and where the
answer gets lost, with none. -/
def unbarred (s : Site) : SiteStep → Bool
  | .write i lost =>
    match s.atm.tasks i, s.work i with
    | some ⟨.pinVerified _ pan _, .pending⟩, some (.compared true) =>
      (s.cards pan).all fun row => row.failedPinCount < 3 && (!lost || row.failedPinCount = 0)
    | _, _ => true
  | _ => true

theorem tallied_write {s t : Site} {i : Nat} {lost : Bool} (h : Tallied s)
    (hok : unbarred s (.write i lost) = true) (ht : s.write i lost = some t) : Tallied t := by
  unfold Site.write at ht
  split at ht
  · next sid pan entered ok htask hwork =>
    split at ht
    · cases ht
    · next row' r hsettled =>
      obtain ⟨row, hrow, hsettle⟩ := Option.bind_eq_some_iff.mp hsettled
      obtain ⟨hsuccess, hcount⟩ := settlePin_count hsettle
      cases ht
      cases ok with
      | false =>
        have hmore : row'.failedPinCount = row.failedPinCount + 1 := hcount
        cases lost with
        | false => exact h.fail hrow hmore rfl (by simp [hsuccess])
        | true => exact h.keep hrow (by omega) rfl rfl
      | true =>
        have hzero : row'.failedPinCount = 0 := hcount
        simp only [unbarred, htask, hwork, hrow, Option.all_some, Bool.and_eq_true,
          Bool.or_eq_true, Bool.not_eq_true', decide_eq_true_eq] at hok
        cases lost with
        | false => exact h.succeed hrow hok.1 rfl (by simp [hsuccess])
        | true =>
          have hnone : row.failedPinCount = 0 := by simpa using hok.2
          exact h.keep hrow (by omega) rfl rfl
  · next reason htask hwork =>
    split at ht
    · cases ht
    · next row hrow =>
      cases ht
      have hcount : row.failedPinCount ≤ row.retained.failedPinCount := le_rfl
      exact h.keep hrow hcount rfl rfl
  · cases ht

theorem tallied_step {sha256 : List Nat → List Char → List Nat} (s : Site) (a : SiteStep)
    (t : Site) (h : Tallied s) (hok : unbarred s a = true) (ht : siteStep sha256 s a = some t) :
    Tallied t := by
  cases a with
  | atm a =>
    simp only [siteStep] at ht
    split at ht
    · obtain ⟨u, -, rfl⟩ := Option.map_eq_some_iff.mp ht
      exact ⟨h.counted, h.stays, h.locked⟩
    · cases ht
  | read i now =>
    simp only [siteStep, Site.read] at ht
    split at ht <;> cases ht
    · exact ⟨h.counted, h.stays, h.locked⟩
    · exact ⟨h.counted, h.stays, h.locked⟩
  | write i lost => exact tallied_write h hok ht

theorem tallied_init (accounts : String → Option Account) (cards : String → Option CardRow) :
    Tallied (.init accounts cards) :=
  ⟨fun _ _ _ => Nat.zero_le _, fun _ hinfix => by simp [Site.init, verdictsOf] at hinfix, trivial⟩

/-- Whatever the sessions do, a card that failed three times in a row is never verified again, where
the right PIN is accepted only for cards with fewer failures. -/
theorem lockedOut_of_reaches {sha256 : List Nat → List Char → List Nat}
    {accounts : String → Option Account} {cards : String → Option CardRow} {s : Site}
    (h : Runs.Reaches (siteStep sha256) (fun s a => unbarred s a) (.init accounts cards) s) :
    Runs.Each lockedOut s.verdicts := by
  have htallied : Tallied s :=
    Runs.Reaches.invariant (P := Tallied) tallied_step (tallied_init accounts cards) h
  exact htallied.locked

section Sample

/-- SHA-256 of the salt of the sample card followed by one of two PINs. -/
def sampleSha256 (salt : List Nat) (pin : List Char) : List Nat :=
  if salt ≠ [1, 2, 3, 4, 5, 6, 7, 8, 9, 10, 11, 12, 13, 14, 15, 16] then []
  else if pin = ['1', '2', '3', '4'] then
    [209, 143, 165, 7, 18, 106, 198, 17, 101, 4, 119, 105, 111, 117, 193, 144, 234, 36, 254, 247,
      215, 12, 135, 25, 167, 161, 5, 177, 87, 30, 36, 79]
  else if pin = ['0', '0', '0', '0'] then
    [127, 3, 78, 140, 63, 203, 30, 100, 49, 252, 109, 17, 13, 25, 70, 251, 16, 239, 185, 146, 244,
      91, 147, 38, 72, 121, 192, 254, 165, 25, 47, 85]
  else []

def sampleAccount : Account := ⟨1000000, 5000000, 0, .active⟩

/-- The PIN is 1234. -/
def sampleCard : CardRow where
  accountId := "ACC"
  expiryDate := "3012"
  status := .active
  pin := "sha256$0102030405060708090a0b0c0d0e0f10$" ++
    "d18fa507126ac611650477696f75c190ea24fef7d70c8719a7a105b1571e244f"
  failedPinCount := 0

def sampleSite : Site :=
  .init (fun id => if id = "ACC" then some sampleAccount else none)
    fun pan => if pan = "4580" then some sampleCard else none

/-- A card is inserted and authenticated; the tasks are numbered from `first`. -/
def insert (first : Nat) : List SiteStep :=
  [.atm (.onCardInserted "4580"), .atm (.resume first .done),
   .atm (.executeCommand (first + 1) none), .atm (.resume (first + 1) .done), .read (first + 2) 0,
   .atm (.resume (first + 2) (.auth ⟨true, some "ACC", "00", none⟩))]

/-- A PIN is entered, and the host compares it and settles the outcome. -/
def enter (first : Nat) (keys : List String) : List SiteStep :=
  [.atm .beginPinEntry, .atm (.executeCommand first none)] ++
    keys.map (fun key => .atm (.pressKey key)) ++
    [.atm (.pressKey "ENTER"), .atm (.resume first .done), .read (first + 1) 0,
     .write (first + 1) false]

/-- Two wrong PINs, and then the right one. -/
def thirdTime : List SiteStep :=
  insert 0 ++ enter 3 ["0", "0", "0", "0"] ++
    [.atm (.resume 4 (.auth ⟨false, none, "55", some "incorrect pin"⟩))] ++
    enter 5 ["0", "0", "0", "0"] ++
    [.atm (.resume 6 (.auth ⟨false, none, "55", some "incorrect pin"⟩))] ++
    enter 7 ["1", "2", "3", "4"] ++ [.atm (.resume 8 (.auth ⟨true, none, "00", none⟩))]

theorem lockedOut_of_thirdTime :
    ∃ s, Runs.exec (siteStep sampleSha256) sampleSite thirdTime = some s ∧
      s.verdicts = [("4580", true), ("4580", false), ("4580", false)] ∧
      Runs.Each lockedOut s.verdicts := by
  have hrun : (Runs.exec (siteStep sampleSha256) sampleSite thirdTime).any (fun s =>
      s.verdicts = [("4580", true), ("4580", false), ("4580", false)]) = true ∧
      Runs.Along (siteStep sampleSha256) (fun s a => unbarred s a) sampleSite thirdTime := by
    decide +kernel
  obtain ⟨hexec, halong⟩ := hrun
  obtain ⟨s, hs, hend⟩ := (Option.any_eq_true ..).mp hexec
  exact ⟨s, hs, of_decide_eq_true hend, lockedOut_of_reaches ⟨thirdTime, halong, hs⟩⟩

/-- Three wrong PINs, the third one while the customer cancels; then the card is inserted again and
the right PIN entered. -/
def fourthTime : List SiteStep :=
  insert 0 ++ enter 3 ["0", "0", "0", "0"] ++
    [.atm (.resume 4 (.auth ⟨false, none, "55", some "incorrect pin"⟩))] ++
    enter 5 ["0", "0", "0", "0"] ++
    [.atm (.resume 6 (.auth ⟨false, none, "55", some "incorrect pin"⟩))] ++
    enter 7 ["0", "0", "0", "0"] ++
    [.atm .cancelTransaction, .atm (.executeCommand 9 none), .atm (.resume 9 .done),
     .atm (.writeRow 10), .atm (.resume 10 .done),
     .atm (.resume 8 (.auth ⟨false, none, "38",
       some "pin tries exceeded — card will be retained"⟩))] ++
    insert 11 ++ enter 14 ["1", "2", "3", "4"] ++
    [.atm (.resume 15 (.auth ⟨true, none, "00", none⟩))]

/-- The card is not retained, its authentication passes, and the right PIN is accepted. -/
theorem verified_after_three_failures :
    ∃ s, Runs.Reaches (siteStep sampleSha256) Runs.free sampleSite s ∧
      s.verdicts = [("4580", true), ("4580", false), ("4580", false), ("4580", false)] ∧
      s.atm.log.head? = some (.stateChanged 1 .mainMenu) ∧ ¬ Runs.Each lockedOut s.verdicts := by
  have hrun : (Runs.exec (siteStep sampleSha256) sampleSite fourthTime).any (fun s =>
      s.verdicts = [("4580", true), ("4580", false), ("4580", false), ("4580", false)] ∧
      s.atm.log.head? = some (.stateChanged 1 .mainMenu)) = true := by decide +kernel
  obtain ⟨s, hs, hend⟩ := (Option.any_eq_true ..).mp hrun
  obtain ⟨hverdicts, hmenu⟩ := of_decide_eq_true hend
  refine ⟨s, .of_exec fourthTime hs, hverdicts, hmenu, ?_⟩
  intro hlocked
  rw [hverdicts] at hlocked
  exact hlocked.1 rfl (List.infix_refl _)

end Sample

end AtmXfs
