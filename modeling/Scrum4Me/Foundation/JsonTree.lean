import Scrum4Me.Foundation.CodeUnits
import Scrum4Me.Foundation.Delimited

/-!
# JSON texts

A value as its text shows it: a number is its digits, the fields of an object stand in
an order. It is written without blanks, and read by the grammar of `JSON.parse`; what is
written is read back.
-/

namespace Scrum4Me
namespace Foundation

inductive JsonTree
  | null
  | bool (value : Bool)
  | number (token : Text)
  | string (text : Text)
  | array (items : List JsonTree)
  | object (fields : List (Text × JsonTree))

namespace JsonTree

/-- Induction with the items and the fields at hand. -/
theorem inductionOn {motive : JsonTree → Prop} (json : JsonTree) (null : motive .null)
    (bool : ∀ value, motive (.bool value)) (number : ∀ token, motive (.number token))
    (string : ∀ text, motive (.string text))
    (array : ∀ items, (∀ item ∈ items, motive item) → motive (.array items))
    (object : ∀ fields, (∀ entry ∈ fields, motive entry.2) → motive (.object fields)) :
    motive json := by
  refine @JsonTree.rec motive (fun items => ∀ item ∈ items, motive item)
    (fun fields => ∀ entry ∈ fields, motive entry.2) (fun entry => motive entry.2)
    null bool number string array object ?_ ?_ ?_ ?_ ?_ json
  · exact List.forall_mem_nil _
  · exact fun _ _ first rest => List.forall_mem_cons.mpr ⟨first, rest⟩
  · exact List.forall_mem_nil _
  · exact fun _ _ first rest => List.forall_mem_cons.mpr ⟨first, rest⟩
  · exact fun _ _ content => content

/-! ## Writing -/

mutual

/-- The text without blanks, the fields as they are listed. -/
def print : JsonTree → Text
  | .null => [110, 117, 108, 108]
  | .bool true => [116, 114, 117, 101]
  | .bool false => [102, 97, 108, 115, 101]
  | .number token => token
  | .string text => Text.quote text
  | .array items => 91 :: joined 44 (printItems items) ++ [93]
  | .object fields => 123 :: joined 44 (printFields fields) ++ [125]

def printItems : List JsonTree → List Text
  | [] => []
  | item :: items => print item :: printItems items

def printFields : List (Text × JsonTree) → List Text
  | [] => []
  | (key, value) :: fields => (Text.quote key ++ 58 :: print value) :: printFields fields

end

/-- The text of a field. -/
def printField (entry : Text × JsonTree) : Text := Text.quote entry.1 ++ 58 :: entry.2.print

theorem printItems_eq (items : List JsonTree) : printItems items = items.map print := by
  induction items with
  | nil => rfl
  | cons item items ih => rw [printItems, List.map_cons, ih]

theorem printFields_eq (fields : List (Text × JsonTree)) :
    printFields fields = fields.map printField := by
  induction fields with
  | nil => rfl
  | cons field fields ih => rw [printFields, List.map_cons, ih, printField]

/-! ## Reading -/

/-- A space, a tab or the end of a line. -/
def Blank (unit : Nat) : Prop := unit = 32 ∨ unit = 9 ∨ unit = 10 ∨ unit = 13

instance : DecidablePred Blank := fun _ => inferInstanceAs (Decidable (_ ∨ _))

def skip (text : Text) : Text := text.dropWhile (Blank ·)

def Digit (unit : Nat) : Prop := 48 ≤ unit ∧ unit ≤ 57

instance : DecidablePred Digit := fun _ => inferInstanceAs (Decidable (_ ∧ _))

/-- The units of which numbers are made. -/
def NumberUnit (unit : Nat) : Prop :=
  Digit unit ∨ unit = 43 ∨ unit = 45 ∨ unit = 46 ∨ unit = 69 ∨ unit = 101

instance : DecidablePred NumberUnit := fun _ => inferInstanceAs (Decidable (_ ∨ _))

/-- Nothing, or an exponent. -/
def ExponentToken : Text → Prop
  | [] => True
  | unit :: rest =>
      let digits := if rest.head? = some 43 ∨ rest.head? = some 45 then rest.tail else rest
      (unit = 69 ∨ unit = 101) ∧ digits ≠ [] ∧ ∀ digit ∈ digits, Digit digit

instance : DecidablePred ExponentToken
  | [] => inferInstanceAs (Decidable True)
  | _ :: _ => inferInstanceAs (Decidable (_ ∧ _))

/-- Nothing, or what follows the digits of an integer. -/
def FractionToken : Text → Prop
  | [] => True
  | unit :: rest =>
      if unit = 46 then
        rest.takeWhile (Digit ·) ≠ [] ∧ ExponentToken (rest.dropWhile (Digit ·))
      else ExponentToken (unit :: rest)

instance : DecidablePred FractionToken
  | [] => inferInstanceAs (Decidable True)
  | _ :: _ => inferInstanceAs (Decidable (ite _ _ _))

/-- The grammar of numbers: no zero leads other digits. -/
def NumberToken (token : Text) : Prop :=
  let unsigned := if token.head? = some 45 then token.tail else token
  let whole := unsigned.takeWhile (Digit ·)
  (whole = [48] ∨ whole ≠ [] ∧ whole.head? ≠ some 48) ∧
    FractionToken (unsigned.dropWhile (Digit ·))

instance : DecidablePred NumberToken := fun _ => inferInstanceAs (Decidable (_ ∧ _))

/-- The value of a hexadecimal digit. -/
def hexValue? (unit : Nat) : Option Nat :=
  if 48 ≤ unit ∧ unit ≤ 57 then some (unit - 48)
  else if 97 ≤ unit ∧ unit ≤ 102 then some (unit - 87)
  else if 65 ≤ unit ∧ unit ≤ 70 then some (unit - 55)
  else none

def readHex : Text → Option (Nat × Text)
  | first :: second :: third :: fourth :: rest => do
      let first ← hexValue? first
      let second ← hexValue? second
      let third ← hexValue? third
      let fourth ← hexValue? fourth
      return (4096 * first + 256 * second + 16 * third + fourth, rest)
  | _ => none

/-- What the letter after a backslash stands for. -/
def escapes : List (Nat × Nat) :=
  [(34, 34), (92, 92), (47, 47), (98, 8), (102, 12), (110, 10), (114, 13), (116, 9)]

def readEscape : Text → Option (Nat × Text)
  | [] => none
  | letter :: rest =>
      if letter = 117 then readHex rest
      else (escapes.lookup letter).map fun unit => (unit, rest)

/-- What is left of a string, and what follows it. -/
def readUnits : Nat → Text → Option (Text × Text)
  | 0, _ => none
  | _ + 1, [] => none
  | fuel + 1, unit :: rest =>
      if unit = 34 then some ([], rest)
      else if unit = 92 then do
        let escaped ← readEscape rest
        let read ← readUnits fuel escaped.2
        return (escaped.1 :: read.1, read.2)
      -- A control character stands in no string.
      else if unit < 32 then none
      else do
        let read ← readUnits fuel rest
        return (unit :: read.1, read.2)

/-- A string from its first quotation mark on. -/
def readString : Text → Option (Text × Text)
  | [] => none
  | unit :: rest => if unit = 34 then readUnits (rest.length + 1) rest else none

section Parts

variable (part : Text → Option (α × Text)) (closing : Nat)

/-- The parts between commas, up to the closing mark. -/
def readParts : Nat → Text → Option (List α × Text)
  | 0, _ => none
  | fuel + 1, text => do
      let first ← part text
      let after := skip first.2
      if after.head? = some 44 then do
        let others ← readParts fuel after.tail
        return (first.1 :: others.1, others.2)
      else if after.head? = some closing then some ([first.1], after.tail)
      else none

def readMany (text : Text) : Option (List α × Text) :=
  if (skip text).head? = some closing then some ([], (skip text).tail)
  else readParts part closing (text.length + 1) text

end Parts

def readField (inner : Text → Option (JsonTree × Text)) (text : Text) :
    Option ((Text × JsonTree) × Text) := do
  let key ← readString (skip text)
  let after := skip key.2
  if after.head? = some 58 then do
    let value ← inner after.tail
    return ((key.1, value.1), value.2)
  else none

def readLiteral (literal : Text) (value : JsonTree) (text : Text) : Option (JsonTree × Text) :=
  if literal <+: text then some (value, text.drop literal.length) else none

def readNumber (text : Text) : Option (JsonTree × Text) :=
  let token := text.takeWhile (NumberUnit ·)
  if NumberToken token then some (.number token, text.dropWhile (NumberUnit ·)) else none

/-- A value from its first unit on; `inner` reads the values inside. -/
def readFrom (inner : Text → Option (JsonTree × Text)) (text : Text) : Option (JsonTree × Text) :=
  if text.head? = some 34 then
    (readString text).map fun read => (.string read.1, read.2)
  else if text.head? = some 91 then
    (readMany inner 93 text.tail).map fun read => (.array read.1, read.2)
  else if text.head? = some 123 then
    (readMany (readField inner) 125 text.tail).map fun read => (.object read.1, read.2)
  else if text.head? = some 110 then readLiteral (print .null) .null text
  else if text.head? = some 116 then readLiteral (print (.bool true)) (.bool true) text
  else if text.head? = some 102 then readLiteral (print (.bool false)) (.bool false) text
  else readNumber text

def readValue : Nat → Text → Option (JsonTree × Text)
  | 0, _ => none
  | fuel + 1, text => readFrom (readValue fuel) (skip text)

/-- A value with nothing but blanks around it. -/
def parse (text : Text) : Option JsonTree := do
  let read ← readValue (text.length + 1) text
  if skip read.2 = [] then some read.1 else none

/-! ## Strings are read back -/

variable {text rest : Text} {unit : Nat}

theorem escapes_of_shortEscape? {letter : Nat} (escaped : Text.shortEscape? unit = some letter) :
    letter ≠ 117 ∧ escapes.lookup letter = some unit := by
  have table : ∀ entry ∈ Text.shortEscapes, entry.2 ≠ 117 ∧
      escapes.lookup entry.2 = some entry.1 := by decide
  exact table _ (Text.mem_of_shortEscape? escaped)

theorem hexValue?_hexDigit {digit : Nat} (small : digit < 16) :
    hexValue? (Text.hexDigit digit) = some digit := by
  have table : ∀ digit < 16, hexValue? (Text.hexDigit digit) = some digit := by decide
  exact table digit small

theorem readEscape_unicodeEscape (small : unit < 65536) :
    readEscape ((Text.unicodeEscape unit).tail ++ rest) = some (unit, rest) := by
  have first : hexValue? (Text.hexDigit (unit / 4096)) = some (unit / 4096) :=
    hexValue?_hexDigit (by omega)
  have second : hexValue? (Text.hexDigit (unit / 256 % 16)) = some (unit / 256 % 16) :=
    hexValue?_hexDigit (by omega)
  have third : hexValue? (Text.hexDigit (unit / 16 % 16)) = some (unit / 16 % 16) :=
    hexValue?_hexDigit (by omega)
  have fourth : hexValue? (Text.hexDigit (unit % 16)) = some (unit % 16) :=
    hexValue?_hexDigit (by omega)
  have whole : 4096 * (unit / 4096) + 256 * (unit / 256 % 16) + 16 * (unit / 16 % 16) +
      unit % 16 = unit := by
    omega
  simp only [Text.unicodeEscape, List.tail_cons, List.cons_append, List.nil_append,
    readEscape, if_true, readHex, first, second, third, fourth, Option.bind_eq_bind,
    Option.bind_some, whole]
  rfl

variable {inner : Text → Option (JsonTree × Text)} {token : Text} {entry : Text × JsonTree}
  {fuel : Nat} {read : Text × Text} {json : JsonTree}

theorem readUnits_plain (plain : unit ≠ 34 ∧ unit ≠ 92 ∧ 32 ≤ unit)
    (reads : readUnits fuel rest = some read) :
    readUnits (fuel + 1) (unit :: rest) = some (unit :: read.1, read.2) := by
  rw [readUnits, if_neg plain.1, if_neg plain.2.1, if_neg (by omega), reads]
  rfl

theorem readUnits_escape (reads : readUnits fuel rest = some read) :
    readUnits (fuel + 1) (Text.escape unit ++ rest) = some (unit :: read.1, read.2) := by
  unfold Text.escape
  cases short : Text.shortEscape? unit with
  | some letter =>
    obtain ⟨differs, found⟩ := escapes_of_shortEscape? short
    rw [List.cons_append, readUnits, if_neg (by decide), if_pos rfl, List.cons_append,
      readEscape, if_neg differs, found]
    dsimp only [Option.map_some, Option.bind_eq_bind, Option.bind_some]
    rw [List.nil_append, reads]
    rfl
  | none =>
    have plain := Text.ne_of_shortEscape? short
    dsimp only
    split
    · rename_i unicode
      have small := Text.small_of_unicode unicode
      have read := @readEscape_unicodeEscape rest unit small
      rw [Text.unicodeEscape, List.tail_cons] at read
      rw [Text.unicodeEscape, List.cons_append, readUnits, if_neg (by decide), if_pos rfl, read]
      dsimp only [Option.bind_eq_bind, Option.bind_some]
      rw [reads]
      rfl
    · rename_i ordinary
      exact readUnits_plain ⟨plain.1, plain.2, by omega⟩ reads

theorem readUnits_quoteUnits (text rest : Text) (fuel : Nat) (enough : text.length < fuel) :
    readUnits fuel (Text.quoteUnits text ++ 34 :: rest) = some (text, rest) := by
  induction text using Text.quoteUnits.induct generalizing fuel with
  | case1 =>
    obtain ⟨fuel, rfl⟩ := Nat.exists_eq_add_of_lt enough
    rw [Text.quoteUnits, List.nil_append, readUnits, if_pos rfl]
  | case2 unit =>
    obtain ⟨fuel, rfl⟩ := Nat.exists_eq_add_of_lt enough
    have reads : readUnits (fuel + 1) (34 :: rest) = some ([], rest) := by
      rw [readUnits, if_pos rfl]
    rw [Text.quoteUnits, List.length_singleton, show 1 + fuel + 1 = fuel + 1 + 1 by omega]
    exact readUnits_escape reads
  | case3 unit next more pair ih =>
    obtain ⟨fuel, rfl⟩ := Nat.exists_eq_add_of_lt enough
    have reads := ih (more.length + fuel + 1) (by omega)
    have high := pair.1
    have low := pair.2
    unfold Text.High at high
    unfold Text.Low at low
    rw [Text.quoteUnits, if_pos pair, List.length_cons, List.length_cons,
      show more.length + 1 + 1 + fuel + 1 = more.length + fuel + 1 + 1 + 1 by omega]
    exact readUnits_plain (by omega) (readUnits_plain (by omega) reads)
  | case4 unit next more single ih =>
    obtain ⟨fuel, rfl⟩ := Nat.exists_eq_add_of_lt enough
    have reads := ih ((next :: more).length + fuel + 1) (by omega)
    rw [Text.quoteUnits, if_neg single, List.append_assoc, List.length_cons,
      show (next :: more).length + 1 + fuel + 1 = (next :: more).length + fuel + 1 + 1 by
        omega]
    exact readUnits_escape reads

theorem length_le_quoteUnits (text : Text) : text.length ≤ (Text.quoteUnits text).length := by
  have single : ∀ unit, 1 ≤ (Text.escape unit).length := by
    intro unit
    obtain ⟨first, tail, same, -⟩ := Text.escape_head unit
    rw [same, List.length_cons]
    omega
  induction text using Text.quoteUnits.induct with
  | case1 => exact Nat.le_refl 0
  | case2 unit => exact single unit
  | case3 unit next more pair ih =>
    rw [Text.quoteUnits, if_pos pair]
    simp only [List.length_cons]
    omega
  | case4 unit next more apart ih =>
    have one := single unit
    rw [Text.quoteUnits, if_neg apart, List.length_append, List.length_cons]
    omega

/-- A string in quotation marks is read back. -/
theorem readString_quote (text rest : Text) :
    readString (Text.quote text ++ rest) = some (text, rest) := by
  have enough := length_le_quoteUnits text
  rw [Text.quote, List.cons_append, List.cons_append, List.append_assoc, readString.eq_def]
  dsimp only
  rw [if_pos rfl]
  refine readUnits_quoteUnits text rest _ ?_
  rw [List.length_append]
  omega

/-! ## Parts are read back -/

section Parts

variable {part : Text → Option (α × Text)} {print : α → Text} {closing : Nat}

/-- What ends a value that is written: a comma, a closing bracket or brace. -/
def Mark (unit : Nat) : Prop := unit = 44 ∨ unit = 93 ∨ unit = 125

/-- A part is read back before any mark. -/
def Reads (part : Text → Option (α × Text)) (print : α → Text) (value : α) : Prop :=
  ∀ rest, Ended Mark rest → part (print value ++ rest) = some (value, rest)

theorem skip_cons (unmarked : ¬ Blank unit) : skip (unit :: rest) = unit :: rest := by
  rw [skip, List.dropWhile_cons_of_neg]
  simpa using unmarked

theorem not_blank_of_mark (mark : Mark unit) : ¬ Blank unit := by
  unfold Mark at mark
  unfold Blank
  omega

theorem readParts_joined (closes : closing = 93 ∨ closing = 125) (first : α) (others : List α)
    (reads : ∀ value ∈ first :: others, Reads part print value) (rest : Text) (fuel : Nat)
    (enough : others.length < fuel) :
    readParts part closing fuel (joined 44 ((first :: others).map print) ++ closing :: rest) =
      some (first :: others, rest) := by
  have closingMark : Mark closing := .inr closes
  have comma : Mark 44 := .inl rfl
  induction others generalizing first fuel with
  | nil =>
    obtain ⟨fuel, rfl⟩ := Nat.exists_eq_add_of_lt enough
    have read := reads first List.mem_cons_self (closing :: rest) (ended_cons.mpr closingMark)
    have apart : closing ≠ 44 := by omega
    rw [List.map_cons, List.map_nil, joined, List.flatMap_nil, List.append_nil, readParts, read]
    dsimp only [Option.bind_eq_bind, Option.bind_some]
    rw [skip_cons (not_blank_of_mark closingMark)]
    simp [apart]
  | cons second others ih =>
    obtain ⟨fuel, rfl⟩ := Nat.exists_eq_add_of_lt enough
    have read := reads first List.mem_cons_self
      (44 :: (joined 44 ((second :: others).map print) ++ closing :: rest))
      (ended_cons.mpr comma)
    have later := ih second (fun value member => reads value (List.mem_cons_of_mem _ member))
      ((second :: others).length + fuel) (by
        rw [List.length_cons]
        omega)
    have split : joined 44 ((first :: second :: others).map print) ++ closing :: rest =
        print first ++ 44 :: (joined 44 ((second :: others).map print) ++ closing :: rest) := by
      simp [joined]
    rw [split, readParts, read]
    dsimp only [Option.bind_eq_bind, Option.bind_some]
    rw [skip_cons (not_blank_of_mark comma), List.head?_cons, if_pos rfl, List.tail_cons, later]
    rfl

/-- The parts between an opening and a closing mark are read back. -/
theorem readMany_joined (closes : closing = 93 ∨ closing = 125) (values : List α)
    (starts : ∀ value ∈ values, ∃ first tail, print value = first :: tail ∧
      ¬ Blank first ∧ first ≠ closing)
    (reads : ∀ value ∈ values, Reads part print value) (rest : Text) :
    readMany part closing (joined 44 (values.map print) ++ closing :: rest) =
      some (values, rest) := by
  cases values with
  | nil =>
    rw [List.map_nil, joined, List.nil_append, readMany,
      skip_cons (not_blank_of_mark (.inr closes)), List.head?_cons, if_pos rfl,
      List.tail_cons]
  | cons first others =>
    obtain ⟨unit, tail, starts, plain, apart⟩ := starts first List.mem_cons_self
    have begins : joined 44 ((first :: others).map print) ++ closing :: rest =
        unit :: (tail ++ ((others.map print).flatMap (44 :: ·) ++ closing :: rest)) := by
      rw [List.map_cons, joined, starts]
      simp
    have length : others.length ≤
        (joined 44 ((first :: others).map print) ++ closing :: rest).length := by
      have more : ∀ parts : List Text, parts.length ≤ (parts.flatMap (44 :: ·)).length := by
        intro parts
        induction parts with
        | nil => exact Nat.le_refl 0
        | cons part parts ih =>
          rw [List.flatMap_cons, List.length_append, List.length_cons, List.length_cons]
          omega
      have many := more (others.map print)
      rw [List.length_map] at many
      rw [List.map_cons, joined, List.length_append, List.length_append]
      omega
    have enough := Nat.lt_succ_of_le length
    rw [readMany, begins, skip_cons plain, List.head?_cons, if_neg (by simpa using apart), ← begins]
    exact readParts_joined closes first others reads rest _ enough

end Parts

/-! ## Values are read back -/

/-- A value occurs in another, at any depth. -/
inductive Within : JsonTree → JsonTree → Prop
  | self (json : JsonTree) : Within json json
  | item {part item : JsonTree} {items : List JsonTree} (member : item ∈ items)
      (inside : Within part item) : Within part (.array items)
  | field {part : JsonTree} {entry : Text × JsonTree} {fields : List (Text × JsonTree)}
      (member : entry ∈ fields) (inside : Within part entry.2) :
      Within part (.object fields)

/-- Every number is one by the grammar. -/
def Printable (json : JsonTree) : Prop :=
  ∀ token, Within (.number token) json →
    NumberToken token ∧ ∀ unit ∈ token, NumberUnit unit

theorem numberToken_head (valid : NumberToken token) :
    ∃ first tail, token = first :: tail ∧ (first = 45 ∨ Digit first) := by
  cases token with
  | nil => exact absurd valid (by decide)
  | cons first tail =>
    refine ⟨first, tail, rfl, ?_⟩
    by_contra neither
    rw [not_or] at neither
    have positive : (first :: tail).head? ≠ some 45 := by simpa using neither.1
    have digits : (first :: tail).takeWhile (Digit ·) = [] := by
      rw [List.takeWhile_cons_of_neg]
      simpa using neither.2
    unfold NumberToken at valid
    rw [if_neg positive] at valid
    dsimp only at valid
    rw [digits] at valid
    rcases valid.1 with zero | some
    · cases zero
    · exact some.1 rfl

/-- The first unit of a text is no blank and no mark. -/
theorem print_head (json : JsonTree) (printable : json.Printable) :
    ∃ first tail, json.print = first :: tail ∧ ¬ Blank first ∧ ¬ Mark first := by
  cases json with
  | null => exact ⟨110, _, by rw [print], by decide, by unfold Mark; decide⟩
  | bool value =>
    cases value with
    | true => exact ⟨116, _, by rw [print], by decide, by unfold Mark; decide⟩
    | false => exact ⟨102, _, by rw [print], by decide, by unfold Mark; decide⟩
  | number token =>
    obtain ⟨first, tail, same, leads⟩ := numberToken_head (printable token (.self _)).1
    unfold Digit at leads
    refine ⟨first, tail, by rw [print, same], ?_, ?_⟩
    · unfold Blank
      omega
    · unfold Mark
      omega
  | string text => exact ⟨34, _, rfl, by decide, by unfold Mark; decide⟩
  | array items => exact ⟨91, _, rfl, by decide, by unfold Mark; decide⟩
  | object fields => exact ⟨123, _, rfl, by decide, by unfold Mark; decide⟩

theorem readNumber_token (valid : NumberToken token) (units : ∀ unit ∈ token, NumberUnit unit)
    (ends : Ended Mark rest) :
    readNumber (token ++ rest) = some (.number token, rest) := by
  have stops : rest.takeWhile (NumberUnit ·) = [] ∧ rest.dropWhile (NumberUnit ·) = rest := by
    cases rest with
    | nil => exact ⟨rfl, rfl⟩
    | cons unit more =>
      have plain : ¬ NumberUnit unit := by
        have mark := ended_cons.mp ends
        unfold Mark at mark
        unfold NumberUnit Digit
        omega
      rw [List.takeWhile_cons_of_neg (by simpa using plain),
        List.dropWhile_cons_of_neg (by simpa using plain)]
      exact ⟨rfl, rfl⟩
  have taken : (token ++ rest).takeWhile (NumberUnit ·) = token := by
    rw [List.takeWhile_append_of_pos fun unit member => decide_eq_true (units unit member),
      stops.1, List.append_nil]
  have dropped : (token ++ rest).dropWhile (NumberUnit ·) = rest := by
    rw [List.dropWhile_append_of_pos fun unit member => decide_eq_true (units unit member), stops.2]
  unfold readNumber
  rw [taken, dropped, if_pos valid]

theorem length_le_joined {parts : List Text} {part : Text} (member : part ∈ parts) :
    part.length ≤ (joined 44 parts).length := by
  cases parts with
  | nil => exact absurd member List.not_mem_nil
  | cons first others =>
    rw [joined, List.length_append]
    rcases List.mem_cons.mp member with rfl | later
    · omega
    · have inside : (44 :: part).Sublist (others.flatMap (44 :: ·)) := by
        rw [List.flatMap_def]
        exact List.sublist_flatten_of_mem (List.mem_map_of_mem later)
      have more := inside.length_le
      rw [List.length_cons] at more
      omega

theorem readFrom_number (valid : NumberToken token)
    (units : ∀ unit ∈ token, NumberUnit unit) (ends : Ended Mark rest) :
    readFrom inner (token ++ rest) = some (.number token, rest) := by
  obtain ⟨first, tail, same, leads⟩ := numberToken_head valid
  have head : (token ++ rest).head? = some first := by
    rw [same]
    rfl
  unfold Digit at leads
  unfold readFrom
  rw [head]
  simp only [Option.some_inj]
  rw [if_neg (by omega), if_neg (by omega), if_neg (by omega), if_neg (by omega),
    if_neg (by omega), if_neg (by omega)]
  exact readNumber_token valid units ends

/-- A field is read back if its value is. -/
theorem reads_field (reads : Reads inner print entry.2) :
    Reads (readField inner) printField entry := by
  intro rest ends
  have quoted : Text.quote entry.1 ++ (58 :: entry.2.print ++ rest) =
      34 :: (Text.quoteUnits entry.1 ++ [34] ++ (58 :: entry.2.print ++ rest)) := rfl
  have key := readString_quote entry.1 (58 :: entry.2.print ++ rest)
  rw [quoted] at key
  rw [printField, List.append_assoc, quoted, readField, skip_cons (by decide), key]
  dsimp only [Option.bind_eq_bind, Option.bind_some]
  rw [List.cons_append, skip_cons (by decide), List.head?_cons, if_pos rfl, List.tail_cons,
    reads rest ends]
  rfl

theorem length_print_lt_array {item : JsonTree} {items : List JsonTree} (member : item ∈ items) :
    item.print.length < (JsonTree.array items).print.length := by
  have inside := length_le_joined (List.mem_map_of_mem (f := print) member)
  rw [print.eq_def (.array items)]
  dsimp only
  rw [printItems_eq, List.length_append, List.length_cons]
  omega

theorem length_print_lt_object {fields : List (Text × JsonTree)} (member : entry ∈ fields) :
    entry.2.print.length < (JsonTree.object fields).print.length := by
  have inside := length_le_joined (List.mem_map_of_mem (f := printField) member)
  rw [printField, List.length_append, List.length_cons] at inside
  rw [print.eq_def (.object fields)]
  dsimp only
  rw [printFields_eq, List.length_append, List.length_cons]
  omega

theorem reads_of_readFrom (printable : json.Printable) (enough : json.print.length ≤ fuel)
    (reads : ∀ depth, json.print.length ≤ depth + 1 → ∀ rest, Ended Mark rest →
      readFrom (readValue depth) (json.print ++ rest) = some (json, rest)) :
    Reads (readValue fuel) print json := by
  intro rest ends
  obtain ⟨first, tail, starts, plain, -⟩ := print_head json printable
  cases fuel with
  | zero =>
    rw [starts, List.length_cons] at enough
    omega
  | succ fuel =>
    have begins : skip (json.print ++ rest) = json.print ++ rest := by
      rw [starts, List.cons_append, skip_cons plain]
    rw [readValue, begins]
    exact reads fuel enough rest ends

/-- What is written is read back, whatever follows it. -/
theorem readValue_print (json : JsonTree) (printable : json.Printable) (fuel : Nat)
    (enough : json.print.length ≤ fuel) :
    Reads (readValue fuel) print json := by
  induction json using inductionOn generalizing fuel with
  | null =>
    refine reads_of_readFrom printable enough fun depth _ rest _ => ?_
    simp [readFrom, print, readLiteral]
  | bool value =>
    refine reads_of_readFrom printable enough fun depth _ rest _ => ?_
    cases value <;> simp [readFrom, print, readLiteral]
  | number token =>
    refine reads_of_readFrom printable enough fun depth _ rest ends => ?_
    obtain ⟨valid, units⟩ := printable token (.self _)
    rw [print]
    exact readFrom_number valid units ends
  | string text =>
    refine reads_of_readFrom printable enough fun depth _ rest _ => ?_
    have read := readString_quote text rest
    have head : (text.quote ++ rest).head? = some 34 := rfl
    rw [print, readFrom, if_pos head, read]
    rfl
  | array items ih =>
    refine reads_of_readFrom printable enough fun depth bound rest ends => ?_
    have inside : ∀ item ∈ items, item.Printable := fun item member token within =>
      printable token (.item member within)
    have read := @readMany_joined _ (readValue depth) print 93 (.inl rfl) items
      (fun item member => by
        obtain ⟨first, tail, starts, plain, unmarked⟩ := print_head item (inside item member)
        exact ⟨first, tail, starts, plain, fun same => unmarked (.inr (.inl same))⟩)
      (fun item member => ih item member (inside item member) depth (by
          have shorter := length_print_lt_array member
          omega)) rest
    have text : (JsonTree.array items).print ++ rest =
        91 :: (joined 44 (items.map print) ++ 93 :: rest) := by
      rw [print, printItems_eq]
      simp
    rw [text, readFrom, List.head?_cons, if_neg (by decide), if_pos rfl, List.tail_cons, read]
    rfl
  | object fields ih =>
    refine reads_of_readFrom printable enough fun depth bound rest ends => ?_
    have read := @readMany_joined _ (readField (readValue depth)) printField 125 (.inr rfl)
      fields (fun entry _ => ⟨34, _, rfl, by decide, by decide⟩)
      (fun entry member => reads_field (ih entry member
        (fun token within => printable token (.field member within)) depth
        (by
          have shorter := length_print_lt_object member
          omega))) rest
    have text : (JsonTree.object fields).print ++ rest =
        123 :: (joined 44 (fields.map printField) ++ 125 :: rest) := by
      rw [print, printFields_eq]
      simp
    rw [text, readFrom, List.head?_cons, if_neg (by decide), if_neg (by decide),
      if_pos rfl, List.tail_cons, read]
    rfl

/-- `JSON.parse` of what is written. -/
theorem parse_print (printable : json.Printable) : parse json.print = some json := by
  have read := readValue_print json printable (json.print.length + 1) (by omega) [] ended_nil
  rw [List.append_nil] at read
  unfold parse
  rw [read]
  rfl

end JsonTree

end Foundation
end Scrum4Me
