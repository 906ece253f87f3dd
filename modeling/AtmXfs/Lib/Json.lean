import AtmXfs.Lib.JsNumber
import AtmXfs.Lib.JsString

namespace Js

/-- A value that `JSON.parse` returns; the members of an object are its own properties. -/
inductive Json where
  | null
  | bool (b : Bool)
  | num (n : Number)
  | str (s : Text)
  | arr (items : List Json)
  | obj (members : List (Text × Json))

def Number.isFinite : Number → Bool
  | .fin _ => true
  | _ => false

namespace Json

/-- The property of a value, `none` for `undefined`; none of the names that are read this way is
inherited from a prototype. -/
def get : Json → Text → Option Json
  | obj members, name => members.lookup name
  | _, _ => none

def isText : Option Json → Text → Bool
  | some (str s), t => s = t
  | _, _ => false

theorem isText_unique {v : Option Json} {s t : Text} (hs : isText v s = true)
    (ht : isText v t = true) : s = t := by
  unfold isText at hs ht
  split at hs
  · simp only [decide_eq_true_eq] at hs ht
    rw [← hs, ← ht]
  · cases hs

mutual

/-- The value that is read from the text `JSON.stringify` writes for one. -/
def wire : Json → Json
  | num n => if n.isFinite then num n else null
  | arr items => arr (wireItems items)
  | obj members => obj (wireMembers members)
  | null => null
  | bool b => bool b
  | str s => str s

def wireItems : List Json → List Json
  | [] => []
  | v :: vs => wire v :: wireItems vs

def wireMembers : List (Text × Json) → List (Text × Json)
  | [] => []
  | (name, v) :: vs => (name, wire v) :: wireMembers vs

end

mutual

/-- No number in the value is out of the range of a double. -/
def finite : Json → Bool
  | num n => n.isFinite
  | arr items => finiteItems items
  | obj members => finiteMembers members
  | null => true
  | bool _ => true
  | str _ => true

def finiteItems : List Json → Bool
  | [] => true
  | v :: vs => finite v && finiteItems vs

def finiteMembers : List (Text × Json) → Bool
  | [] => true
  | (_, v) :: vs => finite v && finiteMembers vs

end

def isNull : Json → Bool
  | null => true
  | _ => false

mutual

/-- `String(v)`, given how a number is written. `none` stands for the TypeError of an object in
which a member of its own hides `toString`: then no primitive value is found. -/
def toText (numberText : Number → Text) : Json → Option Text
  | null => some (utf16 "null")
  | bool b => some (utf16 (if b then "true" else "false"))
  | num n => some (numberText n)
  | str s => some s
  | arr items => (itemTexts numberText items).map (List.intercalate (utf16 ","))
  | obj members =>
    if (members.lookup (utf16 "toString")).isSome then none else some (utf16 "[object Object]")

/-- The items as `join` writes them: null as an empty text. -/
def itemTexts (numberText : Number → Text) : List Json → Option (List Text)
  | [] => some []
  | v :: vs =>
    (if v.isNull then some [] else toText numberText v).bind fun s =>
      (itemTexts numberText vs).map fun ts => s :: ts

end

mutual

/-- No object that `String(v)` comes to has a member named `toString`. -/
def hasText : Json → Bool
  | arr items => itemsHaveText items
  | obj members => (members.lookup (utf16 "toString")).isNone
  | null => true
  | bool _ => true
  | num _ => true
  | str _ => true

def itemsHaveText : List Json → Bool
  | [] => true
  | v :: vs => hasText v && itemsHaveText vs

end

mutual

theorem wire_eq_self_iff : ∀ v : Json, v.wire = v ↔ v.finite = true
  | num n => by
    cases hfinite : n.isFinite with
    | true => simp [wire, finite, hfinite]
    | false => simp [wire, finite, hfinite]
  | arr items => by rw [wire, finite, arr.injEq, wireItems_eq_self_iff items]
  | obj members => by rw [wire, finite, obj.injEq, wireMembers_eq_self_iff members]
  | null => by simp [wire, finite]
  | bool _ => by simp [wire, finite]
  | str _ => by simp [wire, finite]

theorem wireItems_eq_self_iff : ∀ vs : List Json, wireItems vs = vs ↔ finiteItems vs = true
  | [] => by simp [wireItems, finiteItems]
  | v :: vs => by
    rw [wireItems, finiteItems, List.cons.injEq, wire_eq_self_iff v, wireItems_eq_self_iff vs,
      Bool.and_eq_true]

theorem wireMembers_eq_self_iff :
    ∀ vs : List (Text × Json), wireMembers vs = vs ↔ finiteMembers vs = true
  | [] => by simp [wireMembers, finiteMembers]
  | (name, v) :: vs => by
    rw [wireMembers, finiteMembers, List.cons.injEq, Prod.mk.injEq, wire_eq_self_iff v,
      wireMembers_eq_self_iff vs, Bool.and_eq_true]
    simp

end

mutual

theorem toText_isSome (numberText : Number → Text) :
    ∀ v : Json, (v.toText numberText).isSome = v.hasText
  | arr items => by
    rw [toText, hasText, Option.isSome_map, itemTexts_isSome numberText items]
  | obj members => by
    rw [toText, hasText]
    cases members.lookup (utf16 "toString") with
    | none => rfl
    | some v => rfl
  | null => rfl
  | bool _ => rfl
  | num _ => rfl
  | str _ => rfl

theorem itemTexts_isSome (numberText : Number → Text) :
    ∀ vs : List Json, (itemTexts numberText vs).isSome = itemsHaveText vs
  | [] => rfl
  | v :: vs => by
    have hrest := itemTexts_isSome numberText vs
    have hitem : (if v.isNull then some [] else v.toText numberText).isSome = v.hasText := by
      cases v with
      | null => rfl
      | _ => exact toText_isSome numberText _
    rw [itemTexts, itemsHaveText, ← hitem, ← hrest]
    cases (if v.isNull then some [] else v.toText numberText) with
    | none => rfl
    | some s => simp

end

end Json

end Js
