import Scrum4Me.Foundation.JsonTree
import Scrum4Me.Foundation.SortedKeys
import Mathlib.Data.List.Lex
import Mathlib.Data.Nat.Digits.Defs
import Mathlib.Algebra.Ring.Int.Defs

/-!
# Canonical JSON

`canonicalizePpeJcs` writes a value without blanks and the fields of an object by key.
The hashes of payloads and receipts are taken of this text, so what it refuses can be
part of neither.
-/

namespace Scrum4Me
namespace Ppe
namespace Jcs

open Foundation

/-! ## Values -/

/-- The numbers of the language; zero has a second sign. -/
inductive Number (ν : Type)
  | integer (value : Int)
  | negativeZero
  | fraction (value : ν)
  /-- `NaN` and the infinities. -/
  | nonFinite
  deriving DecidableEq

/-- A value as the language knows it. The fields of an object are its own enumerable
ones, as they were inserted. -/
inductive Value (ν : Type)
  | null
  | bool (value : Bool)
  | number (value : Number ν)
  | string (value : Text)
  | array (items : List (Value ν))
  /-- An object whose prototype is `Object.prototype` or null. -/
  | object (fields : List (Text × Value ν))
  /-- An object with another prototype. -/
  | nonPlain
  /-- `undefined`, and what else has no place in JSON: functions, symbols, bigints. -/
  | undefined

/-- `JSON.stringify` of an integer. -/
def natText (value : Nat) : Text :=
  if value = 0 then [48] else ((Nat.digits 10 value).map (48 + ·)).reverse

def intText (value : Int) : Text :=
  if value < 0 then 45 :: natText value.natAbs else natText value.natAbs

/-- `Number.isSafeInteger`. -/
def SafeInteger (value : Int) : Prop := value.natAbs ≤ 9007199254740991

instance (value : Int) : Decidable (SafeInteger value) :=
  inferInstanceAs (Decidable (_ ≤ _))

/-- The integer that a token is the text of, if it is a safe one. -/
def integer? (token : Text) : Option Int :=
  let digits := if token.head? = some 45 then token.tail else token
  let size := digits.foldl (fun value digit => 10 * value + (digit - 48)) (0 : Nat)
  let value := if token.head? = some 45 then -(size : Int) else size
  if token = intText value ∧ SafeInteger value then some value else none

/-- The finite numbers that are no integers: what `JSON.stringify` writes for them, and
what `JSON.parse` makes of a token that is no safe integer. -/
structure Fractions (ν : Type) where
  text : ν → Text
  ofToken : Text → Number ν
  token : ∀ value, JsonTree.NumberToken (text value)
  units : ∀ value, ∀ unit ∈ text value, JsonTree.NumberUnit unit
  apart : ∀ value, integer? (text value) = none
  read : ∀ value, ofToken (text value) = .fraction value

/-! ## Writing -/

inductive JcsError
  | invalidUnicode | unsupportedNumber | unsupportedValue
  deriving DecidableEq

def JcsError.text : JcsError → String
  | .invalidUnicode => "PPE_JCS_INVALID_UNICODE"
  | .unsupportedNumber => "PPE_JCS_UNSUPPORTED_NUMBER"
  | .unsupportedValue => "PPE_JCS_UNSUPPORTED_VALUE"

/-- `assertUnicodeScalar` does not throw: each half of a pair stands by the other. -/
def UnicodeScalar : Text → Prop
  | [] => True
  | [unit] => ¬ Text.High unit ∧ ¬ Text.Low unit
  | unit :: next :: rest =>
      if Text.High unit then Text.Low next ∧ UnicodeScalar rest
      else ¬ Text.Low unit ∧ UnicodeScalar (next :: rest)

def decidableUnicodeScalar : (text : Text) → Decidable (UnicodeScalar text)
  | [] => inferInstanceAs (Decidable True)
  | [_] => inferInstanceAs (Decidable (_ ∧ _))
  | unit :: next :: rest =>
      let _ := decidableUnicodeScalar rest
      let _ := decidableUnicodeScalar (next :: rest)
      inferInstanceAs (Decidable (ite (Text.High unit) (_ ∧ _) (_ ∧ _)))

instance : DecidablePred UnicodeScalar := decidableUnicodeScalar

/-- The results of calls one after another; the first that throws ends them. -/
def collect (results : List (Except ε α)) : Except ε (List α) :=
  results.foldr (fun result rest => result.bind fun value => rest.map (value :: ·)) (.ok [])

section Writing

variable {ν : Type} (fractions : Fractions ν)

def numberText : Number ν → Except JcsError Text
  | .integer value =>
      if SafeInteger value then .ok (intText value) else .error .unsupportedNumber
  | .negativeZero => .ok [48]
  | .fraction value => .ok (fractions.text value)
  | .nonFinite => .error .unsupportedNumber

mutual

def canonicalizePpeJcs : Value ν → Except JcsError Text
  | .null => .ok [110, 117, 108, 108]
  | .bool true => .ok [116, 114, 117, 101]
  | .bool false => .ok [102, 97, 108, 115, 101]
  | .string value =>
      if UnicodeScalar value then .ok (Text.quote value) else .error .invalidUnicode
  | .number value => numberText fractions value
  | .array items =>
      (collect (itemResults items)).map fun texts => 91 :: joined 44 texts ++ [93]
  | .object fields =>
      (collect ((sortByKey (entryResults fields)).map Prod.snd)).map fun texts =>
        123 :: joined 44 texts ++ [125]
  | .nonPlain => .error .unsupportedValue
  | .undefined => .error .unsupportedValue

def itemResults : List (Value ν) → List (Except JcsError Text)
  | [] => []
  | item :: items => canonicalizePpeJcs item :: itemResults items

/-- Each key, and what its entry comes to. -/
def entryResults : List (Text × Value ν) → List (Text × Except JcsError Text)
  | [] => []
  | (key, value) :: fields =>
      (key,
        if UnicodeScalar key then
          (canonicalizePpeJcs value).map fun text => Text.quote key ++ 58 :: text
        else .error .invalidUnicode) :: entryResults fields

end

/-! ## Reading -/

/-- A key that is there gets the new value in its place. -/
def setField (fields : List (Text × Value ν)) (entry : Text × Value ν) :
    List (Text × Value ν) :=
  if (fields.map Prod.fst).contains entry.1 then
    fields.map fun field => if field.1 = entry.1 then entry else field
  else fields ++ [entry]

mutual

def ofJson : JsonTree → Value ν
  | .null => .null
  | .bool value => .bool value
  | .number token =>
      .number ((integer? token).elim (fractions.ofToken token) .integer)
  | .string text => .string text
  | .array items => .array (ofItems items)
  | .object fields => .object ((ofFields fields).foldl setField [])

def ofItems : List JsonTree → List (Value ν)
  | [] => []
  | item :: items => ofJson item :: ofItems items

def ofFields : List (Text × JsonTree) → List (Text × Value ν)
  | [] => []
  | (key, value) :: fields => (key, ofJson value) :: ofFields fields

end

/-- `JSON.parse`. -/
def jsonParse (text : Text) : Option (Value ν) :=
  (JsonTree.parse text).map (ofJson fractions)

end Writing

/-! ## What a value is, up to the order of keys -/

/-- A value whose fields have no order. -/
inductive Meaning (ν : Type)
  | null
  | bool (value : Bool)
  | number (value : Number ν)
  | string (value : Text)
  | array (items : List (Meaning ν))
  | object (field? : Text → Option (Meaning ν))
  | nonPlain
  | undefined

/-- `0 === -0`. -/
def Number.plain : Number ν → Number ν
  | .negativeZero => .integer 0
  | value => value

namespace Value

variable {ν : Type}

mutual

/-- Values have one meaning if they are equal up to the order of keys. -/
def meaning : Value ν → Meaning ν
  | .null => .null
  | .bool value => .bool value
  | .number value => .number value.plain
  | .string value => .string value
  | .array items => .array (itemMeanings items)
  | .object fields => .object fun key => (fieldMeanings fields).lookup key
  | .nonPlain => .nonPlain
  | .undefined => .undefined

def itemMeanings : List (Value ν) → List (Meaning ν)
  | [] => []
  | item :: items => meaning item :: itemMeanings items

def fieldMeanings : List (Text × Value ν) → List (Text × Meaning ν)
  | [] => []
  | (key, value) :: fields => (key, meaning value) :: fieldMeanings fields

end

/-- A value occurs in another, at any depth. -/
inductive Within : Value ν → Value ν → Prop
  | self (value : Value ν) : Within value value
  | item {part item : Value ν} {items : List (Value ν)} (member : item ∈ items)
      (inside : Within part item) : Within part (.array items)
  | field {part : Value ν} {entry : Text × Value ν} {fields : List (Text × Value ν)}
      (member : entry ∈ fields) (inside : Within part entry.2) :
      Within part (.object fields)

/-- No object has two fields under one key. -/
def Proper (value : Value ν) : Prop :=
  ∀ fields, Within (.object fields) value → (fields.map Prod.fst).Nodup

/-- A value with no place in a payload or a receipt. -/
def Offending : Value ν → Prop
  | .number (.integer value) => ¬ SafeInteger value
  | .number .nonFinite => True
  | .string value => ¬ UnicodeScalar value
  | .object fields => ∃ entry ∈ fields, ¬ UnicodeScalar entry.1
  | .nonPlain => True
  | .undefined => True
  | _ => False

end Value

end Jcs
end Ppe
end Scrum4Me
