import AtmXfs.Host.Emulator

namespace AtmXfs.Host

open Js

/-- The bytes of `Buffer.from(text, 'hex')`, which stops at the first pair that is not a byte. -/
def hexBytes : List Char → List Nat
  | a :: b :: rest =>
    if isDigit 16 a ∧ isDigit 16 b then digitsValue 16 [a, b] :: hexBytes rest else []
  | _ => []

/-- The PIN against the stored `sha256$<hex-salt>$<hex-hash>`; `sha256` hashes the salt followed by
the PIN. -/
def verifyPin (sha256 : List Nat → List Char → List Nat) (pin : List Char) (stored : String) :
    Bool :=
  if ['s', 'h', 'a', '2', '5', '6', '$'].isPrefixOf stored.toList then
    match (stored.toList.drop 7).splitOn '$' with
    | [saltHex, hashHex] =>
      saltHex ≠ [] ∧ hashHex ≠ [] ∧ sha256 (hexBytes saltHex) pin = hexBytes hashHex
    | _ => false
  else false

/-- The whole row of a card. -/
structure CardRow extends VirtualCard where
  pin : String
  failedPinCount : Nat
  deriving DecidableEq

/-- How far a call of `authenticate`, `verifyPin` or `retainCard` has come: `verifyPin` has found
the card and compared the PIN, the call has its answer, or the answer was lost on its way back. -/
inductive HostWork where
  | compared (ok : Bool)
  | answered (r : AuthResult)
  | written
  | lost
  deriving DecidableEq

/-- The first statement of `verifyPin` and the comparison behind it. -/
def comparePin (sha256 : List Nat → List Char → List Nat) (card : Option CardRow)
    (entered : List Char) : HostWork :=
  match card with
  | none => .answered ⟨false, none, "14", some "card not found"⟩
  | some row => .compared (verifyPin sha256 entered row.pin)

/-- The second statement of `verifyPin`: the row it leaves and the answer; `none` when the counter
does not fit its column. -/
def settlePin (row : CardRow) (ok : Bool) : Option (CardRow × AuthResult) :=
  if ok then some ({ row with failedPinCount := 0 }, ⟨true, none, "00", none⟩)
  else if row.failedPinCount + 1 < 2 ^ 31 then
    if 3 ≤ row.failedPinCount + 1 then
      some ({ row with failedPinCount := row.failedPinCount + 1 },
        ⟨false, none, "38", some "pin tries exceeded — card will be retained"⟩)
    else
      some ({ row with failedPinCount := row.failedPinCount + 1 },
        ⟨false, none, "55", some "incorrect pin"⟩)
  else none

def CardRow.retained (row : CardRow) : CardRow := { row with status := .retained }

/-- The counter goes up with a failure and back to zero with a success. -/
theorem settlePin_count {row row' : CardRow} {ok : Bool} {r : AuthResult}
    (h : settlePin row ok = some (row', r)) :
    r.success = ok ∧ row'.failedPinCount = if ok then 0 else row.failedPinCount + 1 := by
  unfold settlePin at h
  split at h
  · next hok =>
    cases h
    simp [hok]
  · next hok =>
    split at h
    · split at h <;> cases h <;> simp [hok]
    · cases h

end AtmXfs.Host
