import Mathlib.Data.List.Sort

/-!
# JSON values

Values with whole numbers, their text, and their canonical form: no blanks, the
entries of an object in the order of their keys, and no number that a double cannot
hold.
-/

namespace Scrum4Me
namespace Foundation

inductive Json
  | null
  | bool (value : Bool)
  | number (value : Int)
  | string (value : String)
  | array (items : List Json)
  | object (entries : List (String × Json))

namespace Json

/-! ## Access -/

/-- The value under a key of an object. -/
def get? : Json → String → Option Json
  | object entries, key => (entries.find? (·.1 = key)).map (·.2)
  | _, _ => none

/-- The text under a key of an object. -/
def text? (json : Json) (key : String) : Option String :=
  match json.get? key with
  | some (string value) => some value
  | _ => none

def isRecord : Json → Bool
  | object _ => true
  | _ => false

/-- `value ?? null`. -/
def ofText : Option String → Json
  | some value => string value
  | none => null

/-! ## Texts -/

def hexDigit (digit : Nat) : Char :=
  if digit < 10 then Char.ofNat (48 + digit) else Char.ofNat (87 + digit)

/-- The escapes of a character inside a quoted text. -/
def escape (char : Char) : List Char :=
  if char = '"' then ['\\', '"']
  else if char = '\\' then ['\\', '\\']
  else if 32 ≤ char.toNat then [char]
  else
    match char.toNat with
    | 8 => ['\\', 'b']
    | 9 => ['\\', 't']
    | 10 => ['\\', 'n']
    | 12 => ['\\', 'f']
    | 13 => ['\\', 'r']
    | code => ['\\', 'u', '0', '0', hexDigit (code / 16), hexDigit (code % 16)]

def quote (text : String) : String :=
  String.ofList ('"' :: text.toList.flatMap escape ++ ['"'])

/-- A line break, and two blanks for every level. -/
def newline (level : Nat) : String :=
  String.ofList ('\n' :: List.replicate (2 * level) ' ')

/-- The parts between brackets, each on a line of its own. -/
def block (opening closing : String) (level : Nat) : List String → String
  | [] => opening ++ closing
  | parts =>
      opening ++ newline (level + 1) ++
        String.intercalate ("," ++ newline (level + 1)) parts ++ newline level ++ closing

mutual

/-- `JSON.stringify(value, null, 2)`. -/
def stringify (level : Nat) : Json → String
  | null => "null"
  | bool value => toString value
  | number value => toString value
  | string value => quote value
  | array items => block "[" "]" level (stringifyItems (level + 1) items)
  | object entries => block "\x7b" "\x7d" level (stringifyEntries (level + 1) entries)

def stringifyItems (level : Nat) : List Json → List String
  | [] => []
  | item :: items => stringify level item :: stringifyItems level items

def stringifyEntries (level : Nat) : List (String × Json) → List String
  | [] => []
  | (key, value) :: entries =>
      (quote key ++ ": " ++ stringify level value) :: stringifyEntries level entries

end

/-! ## The canonical form -/

/-- `Number.MAX_SAFE_INTEGER`. -/
def maxSafeInteger : Nat := 9007199254740991

mutual

/-- Every number in the value is safe. -/
def Safe : Json → Prop
  | number value => value.natAbs ≤ maxSafeInteger
  | array items => SafeItems items
  | object entries => SafeEntries entries
  | _ => True

def SafeItems : List Json → Prop
  | [] => True
  | item :: items => Safe item ∧ SafeItems items

def SafeEntries : List (String × Json) → Prop
  | [] => True
  | (_, value) :: entries => Safe value ∧ SafeEntries entries

end

mutual

def decideSafe : (json : Json) → Decidable (Safe json)
  | null => isTrue trivial
  | bool _ => isTrue trivial
  | string _ => isTrue trivial
  | number value => inferInstanceAs (Decidable (value.natAbs ≤ maxSafeInteger))
  | array items => decideSafeItems items
  | object entries => decideSafeEntries entries

def decideSafeItems : (items : List Json) → Decidable (SafeItems items)
  | [] => isTrue trivial
  | item :: items =>
      @instDecidableAnd _ _ (decideSafe item) (decideSafeItems items)

def decideSafeEntries :
    (entries : List (String × Json)) → Decidable (SafeEntries entries)
  | [] => isTrue trivial
  | (_, value) :: entries =>
      @instDecidableAnd _ _ (decideSafe value) (decideSafeEntries entries)

end

instance (json : Json) : Decidable json.Safe := decideSafe json

mutual

/-- The canonical text of a value whose numbers are safe. -/
def render : Json → String
  | null => "null"
  | bool value => toString value
  | number value => toString value
  | string value => quote value
  | array items => "[" ++ String.intercalate "," (renderItems items) ++ "]"
  | object entries =>
      "\x7b" ++ String.intercalate "," (((renderEntries entries).insertionSort
        fun first second => first.1 ≤ second.1).map (·.2)) ++ "\x7d"

def renderItems : List Json → List String
  | [] => []
  | item :: items => render item :: renderItems items

/-- Every key with its entry. -/
def renderEntries : List (String × Json) → List (String × String)
  | [] => []
  | (key, value) :: entries =>
      (key, quote key ++ ":" ++ render value) :: renderEntries entries

end

/-! ## Safe values -/

@[simp] theorem safe_null : Safe null := by
  simp [Safe]

@[simp] theorem safe_string (value : String) : Safe (string value) := by
  simp [Safe]

@[simp] theorem safe_ofText (value : Option String) : Safe (ofText value) := by
  cases value <;> simp [ofText]

@[simp] theorem safe_number (value : Int) :
    Safe (number value) ↔ value.natAbs ≤ maxSafeInteger := by
  simp [Safe]

theorem safe_natCast (value : Nat) : Safe (number value) ↔ value ≤ maxSafeInteger := by
  simp

@[simp] theorem safe_array (items : List Json) :
    Safe (array items) ↔ ∀ item ∈ items, Safe item := by
  rw [Safe]
  induction items with
  | nil => simp [SafeItems]
  | cons item items ih => rw [SafeItems, ih, List.forall_mem_cons]

@[simp] theorem safe_object (entries : List (String × Json)) :
    Safe (object entries) ↔ ∀ entry ∈ entries, Safe entry.2 := by
  rw [Safe]
  induction entries with
  | nil => simp [SafeEntries]
  | cons entry entries ih => rw [SafeEntries, ih, List.forall_mem_cons]

end Json

end Foundation
end Scrum4Me
