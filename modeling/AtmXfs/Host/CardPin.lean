import AtmXfs.Host.Cards
import Mathlib.Data.List.Induction
import Mathlib.Data.List.SplitOn

namespace AtmXfs.Host

open Js

def hexChar (n : Nat) : Char := if n < 10 then Char.ofNat (48 + n) else Char.ofNat (87 + n)

/-- `buffer.toString('hex')`. -/
def hexText (bytes : List Nat) : List Char :=
  bytes.flatMap fun b => [hexChar (b / 16), hexChar (b % 16)]

/-- The text that is stored for a PIN; `salt` stands for the random bytes. -/
def hashPin (sha256 : List Nat → List Char → List Nat) (salt : List Nat) (pin : List Char) :
    String :=
  String.ofList (['s', 'h', 'a', '2', '5', '6', '$'] ++
    (hexText salt ++ '$' :: hexText (sha256 salt pin)))

structure CreateCardDto where
  pan : String
  cardholderName : String
  expiryDate : String
  pin : List Char
  accountId : String

/-- The row that `CardsController.create` writes. -/
def createCard (sha256 : List Nat → List Char → List Nat) (salt : List Nat)
    (body : CreateCardDto) : CardRow where
  accountId := body.accountId
  expiryDate := body.expiryDate
  status := .active
  pin := hashPin sha256 salt body.pin
  failedPinCount := 0

/-- Both statements of `verifyPin`, with no other call between them. -/
def verifyCard (sha256 : List Nat → List Char → List Nat) (row : CardRow) (entered : List Char) :
    Option (CardRow × AuthResult) :=
  match comparePin sha256 (some row) entered with
  | .compared ok => settlePin row ok
  | _ => none

def verifyAll (sha256 : List Nat → List Char → List Nat) :
    CardRow → List (List Char) → Option (CardRow × List AuthResult)
  | row, [] => some (row, [])
  | row, entered :: later =>
    (verifyCard sha256 row entered).bind fun (next, r) =>
      (verifyAll sha256 next later).map fun (last, rs) => (last, r :: rs)

theorem hexBytes_hexText {bytes : List Nat} (h : ∀ b ∈ bytes, b < 256) :
    hexBytes (hexText bytes) = bytes := by
  have hbyte : ∀ b < 256, isDigit 16 (hexChar (b / 16)) = true ∧
      isDigit 16 (hexChar (b % 16)) = true ∧
      digitsValue 16 [hexChar (b / 16), hexChar (b % 16)] = b := by decide +kernel
  induction bytes with
  | nil => rfl
  | cons b bytes ih =>
    obtain ⟨hb, hrest⟩ := List.forall_mem_cons.mp h
    obtain ⟨hhigh, hlow, hvalue⟩ := hbyte b hb
    rw [hexText, List.flatMap_cons, List.cons_append, List.cons_append, List.nil_append, hexBytes,
      if_pos ⟨hhigh, hlow⟩, hvalue]
    exact congrArg (b :: ·) (ih hrest)

theorem not_dollar_hexText {bytes : List Nat} (h : ∀ b ∈ bytes, b < 256) :
    '$' ∉ hexText bytes := by
  have hdigit : ∀ n < 16, hexChar n ≠ '$' := by decide
  intro hmem
  obtain ⟨b, hb, hc⟩ := List.mem_flatMap.mp hmem
  have hlt := h b hb
  rcases List.mem_cons.mp hc with hc | hc
  · exact hdigit (b / 16) (by omega) hc.symm
  · exact hdigit (b % 16) (by omega) (List.mem_singleton.mp hc).symm

theorem hexText_ne_nil {bytes : List Nat} (h : bytes ≠ []) : hexText bytes ≠ [] := by
  cases bytes with
  | nil => exact absurd rfl h
  | cons b bytes => simp [hexText]

/-- 32 bytes. -/
def IsDigest (sha256 : List Nat → List Char → List Nat) : Prop :=
  ∀ salt pin, (sha256 salt pin).length = 32 ∧ ∀ b ∈ sha256 salt pin, b < 256

section

variable {sha256 : List Nat → List Char → List Nat} {salt : List Nat}

/-- Exactly the PINs with the same digest are accepted. -/
theorem verifyPin_hashPin (hdigest : IsDigest sha256) (hne : salt ≠ [])
    (hsalt : ∀ b ∈ salt, b < 256) (entered pin : List Char) :
    verifyPin sha256 entered (hashPin sha256 salt pin) =
      decide (sha256 salt entered = sha256 salt pin) := by
  obtain ⟨hlength, hbytes⟩ := hdigest salt pin
  have hhash : sha256 salt pin ≠ [] := List.ne_nil_of_length_pos (by omega)
  have hsplit : (hexText salt ++ '$' :: hexText (sha256 salt pin)).splitOn '$' =
      [hexText salt, hexText (sha256 salt pin)] := by
    have h : (List.intercalate ['$'] [hexText salt, hexText (sha256 salt pin)]).splitOn '$' =
        [hexText salt, hexText (sha256 salt pin)] := by
      apply List.splitOn_intercalate
      · simpa using ⟨not_dollar_hexText hsalt, not_dollar_hexText hbytes⟩
      · simp
    simpa [List.intercalate] using h
  have hprefix : ['s', 'h', 'a', '2', '5', '6', '$'].isPrefixOf
      (hashPin sha256 salt pin).toList = true := by
    rw [hashPin, String.toList_ofList, List.isPrefixOf_iff_prefix]
    exact List.prefix_append ..
  rw [verifyPin, if_pos hprefix, hashPin, String.toList_ofList,
    List.drop_left' (by rfl), hsplit]
  simp [hexText_ne_nil hne, hexText_ne_nil hhash, hexBytes_hexText hsalt, hexBytes_hexText hbytes]

/-- The failures in a row, at the end of a run that began with `n` of them. -/
def countFrom (sha256 : List Nat → List Char → List Nat) (salt : List Nat) (pin : List Char)
    (n : Nat) (entered : List (List Char)) : Nat :=
  entered.foldl (fun n e => if sha256 salt e = sha256 salt pin then 0 else n + 1) n

theorem countFrom_zero (pin : List Char) (entered : List (List Char)) :
    countFrom sha256 salt pin 0 entered =
      (entered.reverse.takeWhile fun e => sha256 salt e ≠ sha256 salt pin).length := by
  induction entered using List.reverseRecOn with
  | nil => rfl
  | append_singleton entered e ih =>
    have hstep : countFrom sha256 salt pin 0 (entered ++ [e]) =
        if sha256 salt e = sha256 salt pin then 0 else countFrom sha256 salt pin 0 entered + 1 := by
      rw [countFrom, List.foldl_append]
      rfl
    rw [hstep, ih, List.reverse_append, List.reverse_singleton, List.singleton_append,
      List.takeWhile_cons]
    by_cases heq : sha256 salt e = sha256 salt pin
    · simp [heq]
    · simp [heq]

theorem verifyAll_from (hdigest : IsDigest sha256) (hne : salt ≠ [])
    (hsalt : ∀ b ∈ salt, b < 256) (pin : List Char) (entered : List (List Char)) {row : CardRow}
    (hpin : row.pin = hashPin sha256 salt pin)
    (hfew : row.failedPinCount + entered.length < 2 ^ 31) :
    ∃ rs, verifyAll sha256 row entered =
        some ({ row with
          failedPinCount := countFrom sha256 salt pin row.failedPinCount entered }, rs) ∧
      rs.map (·.success) = entered.map fun e => decide (sha256 salt e = sha256 salt pin) := by
  induction entered generalizing row with
  | nil => exact ⟨[], rfl, rfl⟩
  | cons e later ih =>
    rw [List.length_cons] at hfew
    have hcompare : verifyCard sha256 row e =
        settlePin row (decide (sha256 salt e = sha256 salt pin)) := by
      rw [verifyCard, comparePin, hpin, verifyPin_hashPin hdigest hne hsalt]
    by_cases heq : sha256 salt e = sha256 salt pin
    · obtain ⟨rs, hrs, hverdicts⟩ := @ih { row with failedPinCount := 0 } hpin
        (by dsimp only; omega)
      refine ⟨⟨true, none, "00", none⟩ :: rs, ?_, ?_⟩
      · rw [verifyAll, hcompare, settlePin, if_pos (decide_eq_true heq), Option.bind_some]
        simp only [hrs, countFrom, List.foldl_cons, if_pos heq, Option.map_some]
      · simp [heq, hverdicts]
    · have hsettle : ∃ r : AuthResult, r.success = false ∧ settlePin row false =
          some ({ row with failedPinCount := row.failedPinCount + 1 }, r) := by
        rw [settlePin, if_neg Bool.false_ne_true, if_pos (by omega)]
        split
        · exact ⟨_, rfl, rfl⟩
        · exact ⟨_, rfl, rfl⟩
      obtain ⟨r, hr, hsettled⟩ := hsettle
      obtain ⟨rs, hrs, hverdicts⟩ := @ih
        { row with failedPinCount := row.failedPinCount + 1 } hpin (by dsimp only; omega)
      refine ⟨r :: rs, ?_, ?_⟩
      · rw [verifyAll, hcompare, decide_eq_false heq, hsettled, Option.bind_some]
        simp only [hrs, countFrom, List.foldl_cons, if_neg heq, Option.map_some]
      · simp [heq, hr, hverdicts]

/-- A card that was created with a PIN, verified any number of times: each time exactly the PINs
with the digest of its own are accepted, also after any number of failures, and of the row nothing
changes but the counter, which counts the failures since the last success. -/
theorem verifyAll_createCard (hdigest : IsDigest sha256) (hsixteen : salt.length = 16)
    (hsalt : ∀ b ∈ salt, b < 256) (body : CreateCardDto) {entered : List (List Char)}
    (hfew : entered.length < 2 ^ 31) :
    ∃ rs, verifyAll sha256 (createCard sha256 salt body) entered =
        some ({ createCard sha256 salt body with
          failedPinCount := (entered.reverse.takeWhile fun e =>
            sha256 salt e ≠ sha256 salt body.pin).length }, rs) ∧
      rs.map (·.success) = entered.map fun e => decide (sha256 salt e = sha256 salt body.pin) := by
  rw [← countFrom_zero]
  exact verifyAll_from hdigest (List.ne_nil_of_length_pos (by omega)) hsalt body.pin entered rfl
    (by simpa [createCard] using hfew)

end

/-- The digests of 111111 and of 222222, salted with the bytes 0 to 15. -/
def twoDigests (_ : List Nat) (pin : List Char) : List Nat :=
  if pin = ['1', '1', '1', '1', '1', '1'] then
    [116, 45, 213, 68, 136, 82, 133, 141, 28, 127, 75, 200, 34, 64, 74, 198, 28, 6, 91, 184, 232,
      45, 186, 155, 248, 13, 201, 124, 34, 75, 153, 38]
  else
    [91, 150, 253, 203, 186, 46, 103, 173, 200, 14, 22, 91, 106, 229, 244, 8, 107, 45, 137, 73,
      224, 186, 240, 36, 195, 55, 95, 11, 243, 136, 72, 44]

/-- Three wrong PINs, the right one, and a wrong one again. -/
theorem verifyAll_createCard_tries :
    let wrong := ['2', '2', '2', '2', '2', '2']
    let right := ['1', '1', '1', '1', '1', '1']
    let card := createCard twoDigests (List.range 16) ⟨"458012345678", "BUDI", "2812", right, "ACC"⟩
    ∃ rs, verifyAll twoDigests card [wrong, wrong, wrong, right, wrong] =
        some ({ card with failedPinCount := 1 }, rs) ∧
      rs.map (·.success) = [false, false, false, true, false] := by
  intro wrong right card
  have hdigest : IsDigest twoDigests := by
    intro salt pin
    unfold twoDigests
    split
    · decide
    · decide
  exact verifyAll_createCard hdigest (by decide) (by decide)
    ⟨"458012345678", "BUDI", "2812", right, "ACC"⟩
    (show [wrong, wrong, wrong, right, wrong].length < 2 ^ 31 by decide)

end AtmXfs.Host
