import Scrum4Me.Foundation.CodeUnits
import Scrum4Me.Foundation.Delimited
import Mathlib.Data.List.Sort

/-!
# The canonical text of a value

`canonicalResult` writes a value without blanks and the fields of an object in the order
of `localeCompare`. Equal texts are what the dispatcher takes for equal values.
-/

namespace Scrum4Me
namespace Dispatch
namespace Canonical

open Foundation

/-- The code units of a plain text. -/
def ascii (text : String) : Text := text.toList.map Char.toNat

/-- Digits, signs, the point and the exponent. -/
def NumeralUnit (unit : Nat) : Prop :=
  48 ≤ unit ∧ unit ≤ 57 ∨ unit = 43 ∨ unit = 45 ∨ unit = 46 ∨ unit = 101

/-- The finite numbers and what `JSON.stringify` makes of them. -/
structure Numerals (ν : Type) where
  text : ν → Text
  injective : Function.Injective text
  nonempty : ∀ number, text number ≠ []
  plain : ∀ number, ∀ unit ∈ text number, NumeralUnit unit

/-- `first.localeCompare(second) <= 0`. Distinct strings may compare equal. -/
structure Collation where
  le : Text → Text → Bool
  total : ∀ first second, le first second = true ∨ le second first = true
  trans : ∀ first second third,
    le first second = true → le second third = true → le first third = true

/-- The values that a result is built from. The fields of an object are listed as they
were inserted; a field without a value is `undefined`. -/
inductive Value (ν : Type)
  | null
  | bool (value : Bool)
  | number (value : ν)
  /-- `NaN` and the infinities. -/
  | nonFinite
  | string (value : Text)
  | array (items : List (Value ν))
  | object (fields : List (Text × Option (Value ν)))

/-! ## Own keys -/

/-- The key of an array element: the decimal text of a number below `2^32 - 1`. -/
def arrayIndex? (key : Text) : Option Nat :=
  let value := key.foldl (fun value digit => 10 * value + (digit - 48)) 0
  if key = ascii (toString value) ∧ value < 4294967295 then some value else none

/-- The order of `Object.entries`: array indices ascending, then the other keys as they
were inserted. -/
def ownOrder (entries : List (Text × β)) : List (Text × β) :=
  (entries.filter fun entry => (arrayIndex? entry.1).isSome).insertionSort (fun first second =>
        (arrayIndex? first.1).getD 0 ≤ (arrayIndex? second.1).getD 0) ++
    entries.filter fun entry => (arrayIndex? entry.1).isNone

/-- `sort(([a],[b]) => a.localeCompare(b))`, which is stable. -/
def localeSort (collation : Collation) (entries : List (Text × β)) :
    List (Text × β) :=
  entries.insertionSort fun first second => collation.le first.1 second.1 = true

/-! ## The text -/

section Canonical

variable {ν : Type} (numerals : Numerals ν) (collation : Collation)

mutual

def canonicalResult : Value ν → Text
  | .null => ascii "null"
  | .bool true => ascii "true"
  | .bool false => ascii "false"
  | .number value => numerals.text value
  | .nonFinite => ascii "null"
  | .string value => Text.quote value
  | .array items => 91 :: joined 44 (itemTexts items) ++ [93]
  | .object fields =>
      123 :: joined 44 ((localeSort collation (ownOrder (entryTexts fields))).map
        Prod.snd) ++ [125]

def itemTexts : List (Value ν) → List Text
  | [] => []
  | item :: items => canonicalResult item :: itemTexts items

/-- Every key with a value, and its entry. -/
def entryTexts : List (Text × Option (Value ν)) → List (Text × Text)
  | [] => []
  | (_, none) :: fields => entryTexts fields
  | (key, some value) :: fields =>
      (key, Text.quote key ++ 58 :: canonicalResult value) :: entryTexts fields

end

end Canonical

/-! ## What a value means -/

/-- A JSON value: the fields of an object have no order. -/
inductive Meaning (ν : Type)
  | null
  | bool (value : Bool)
  | number (value : ν)
  | string (value : Text)
  | array (items : List (Meaning ν))
  | object (field? : Text → Option (Meaning ν))

namespace Value

variable {ν : Type}

mutual

def meaning : Value ν → Meaning ν
  | .null => .null
  | .bool value => .bool value
  | .number value => .number value
  -- JSON has no other numbers
  | .nonFinite => .null
  | .string value => .string value
  | .array items => .array (itemMeanings items)
  | .object fields => .object fun key => (fieldMeanings fields).lookup key

def itemMeanings : List (Value ν) → List (Meaning ν)
  | [] => []
  | item :: items => meaning item :: itemMeanings items

def fieldMeanings : List (Text × Option (Value ν)) → List (Text × Meaning ν)
  | [] => []
  | (_, none) :: fields => fieldMeanings fields
  | (key, some value) :: fields => (key, meaning value) :: fieldMeanings fields

end

mutual

/-- No object has two fields under one key. -/
def Proper : Value ν → Prop
  | .array items => ProperItems items
  | .object fields => (fields.map Prod.fst).Nodup ∧ ProperFields fields
  | _ => True

def ProperItems : List (Value ν) → Prop
  | [] => True
  | item :: items => Proper item ∧ ProperItems items

def ProperFields : List (Text × Option (Value ν)) → Prop
  | [] => True
  | (_, none) :: fields => ProperFields fields
  | (_, some value) :: fields => Proper value ∧ ProperFields fields

end

/-- Two keys that compare equal, and that `Object.entries` leaves as inserted. -/
def TiedKeys (collation : Collation) (first second : Text) : Prop :=
  first ≠ second ∧ collation.le first second = true ∧ collation.le second first = true ∧
    arrayIndex? first = none ∧ arrayIndex? second = none

/-- Two fields of one object have tied keys. -/
def TiedFields (collation : Collation) (fields : List (Text × Option (Value ν))) : Prop :=
  ∃ first ∈ fields, ∃ second ∈ fields, first.2.isSome = true ∧ second.2.isSome = true ∧
    TiedKeys collation first.1 second.1

section Untied

variable (collation : Collation)

mutual

/-- No object inside has two fields with tied keys. -/
def Untied : Value ν → Prop
  | .array items => UntiedItems items
  | .object fields => ¬ TiedFields collation fields ∧ UntiedFields fields
  | _ => True

def UntiedItems : List (Value ν) → Prop
  | [] => True
  | item :: items => Untied item ∧ UntiedItems items

def UntiedFields : List (Text × Option (Value ν)) → Prop
  | [] => True
  | (_, none) :: fields => UntiedFields fields
  | (_, some value) :: fields => Untied value ∧ UntiedFields fields

end

end Untied

end Value

end Canonical
end Dispatch
end Scrum4Me
