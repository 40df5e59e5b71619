import Mathlib.Data.List.Basic
import Mathlib.Tactic.Common

/-!
# Quoted texts

`JSON.stringify` of a string. A string is a list of UTF-16 code units; a surrogate
without its other half is escaped.
-/

namespace Scrum4Me
namespace Foundation

/-- The code units of a string. -/
abbrev Text := List Nat

namespace Text

/-- The units with a short escape, and its letter. -/
def shortEscapes : List (Nat × Nat) :=
  [(34, 34), (92, 92), (8, 98), (9, 116), (10, 110), (12, 102), (13, 114)]

def shortEscape? (unit : Nat) : Option Nat := shortEscapes.lookup unit

def hexDigit (digit : Nat) : Nat :=
  if digit < 10 then 48 + digit else 87 + digit

def High (unit : Nat) : Prop := 55296 ≤ unit ∧ unit ≤ 56319

def Low (unit : Nat) : Prop := 56320 ≤ unit ∧ unit ≤ 57343

instance (unit : Nat) : Decidable (High unit) := inferInstanceAs (Decidable (_ ∧ _))

instance (unit : Nat) : Decidable (Low unit) := inferInstanceAs (Decidable (_ ∧ _))

/-- `\uXXXX`. -/
def unicodeEscape (unit : Nat) : Text :=
  [92, 117, hexDigit (unit / 4096), hexDigit (unit / 256 % 16),
    hexDigit (unit / 16 % 16), hexDigit (unit % 16)]

/-- What stands for a code unit that is not half of a pair. -/
def escape (unit : Nat) : Text :=
  match shortEscape? unit with
  | some letter => [92, letter]
  | none =>
      if unit < 32 ∨ High unit ∨ Low unit then unicodeEscape unit else [unit]

def quoteUnits : Text → Text
  | [] => []
  | [unit] => escape unit
  | unit :: next :: rest =>
      if High unit ∧ Low next then
        unit :: next :: quoteUnits rest
      else
        escape unit ++ quoteUnits (next :: rest)

/-- `JSON.stringify(text)`. -/
def quote (text : Text) : Text := 34 :: quoteUnits text ++ [34]

/-! ## Reading back -/

section Reading

variable {unit unit' : Nat} {rest rest' : Text}

variable {letter : Nat}

theorem mem_of_shortEscape? (escaped : shortEscape? unit = some letter) :
    (unit, letter) ∈ shortEscapes := by
  obtain ⟨before, after, split, _⟩ := List.lookup_eq_some_iff.mp escaped
  rw [split]
  simp

theorem shortEscape?_injective (first : shortEscape? unit = some letter)
    (second : shortEscape? unit' = some letter) :
    unit = unit' := by
  have table : ∀ one ∈ shortEscapes, ∀ other ∈ shortEscapes,
      one.2 = other.2 → one.1 = other.1 := by decide
  exact table _ (mem_of_shortEscape? first) _ (mem_of_shortEscape? second) rfl

theorem shortEscape?_ne (escaped : shortEscape? unit = some letter) : letter ≠ 117 := by
  have table : ∀ one ∈ shortEscapes, one.2 ≠ 117 := by decide
  exact table _ (mem_of_shortEscape? escaped)

theorem ne_of_shortEscape? (plain : shortEscape? unit = none) : unit ≠ 34 ∧ unit ≠ 92 := by
  constructor <;> rintro rfl <;> exact absurd plain (by decide)

theorem hexDigit_injective {first second : Nat} (small : first < 16) (small' : second < 16)
    (same : hexDigit first = hexDigit second) :
    first = second := by
  unfold hexDigit at same
  split_ifs at same <;> omega

theorem unicodeEscape_readsBack (small : unit < 65536) (small' : unit' < 65536)
    (same : unicodeEscape unit ++ rest = unicodeEscape unit' ++ rest') :
    unit = unit' ∧ rest = rest' := by
  simp only [unicodeEscape, List.cons_append, List.nil_append, List.cons.injEq, true_and] at same
  obtain ⟨first, second, third, fourth, tail⟩ := same
  have first := hexDigit_injective (by omega) (by omega) first
  have second := hexDigit_injective (by omega) (by omega) second
  have third := hexDigit_injective (by omega) (by omega) third
  have fourth := hexDigit_injective (by omega) (by omega) fourth
  exact ⟨by omega, tail⟩

theorem small_of_unicode (unicode : unit < 32 ∨ High unit ∨ Low unit) : unit < 65536 := by
  unfold High Low at unicode
  omega

/-- The first unit of an escape. -/
theorem escape_head (unit : Nat) :
    ∃ first tail, escape unit = first :: tail ∧
      (first = 92 ∨ first = unit ∧ ¬ High unit ∧ first ≠ 34) := by
  unfold escape
  split
  · exact ⟨_, _, rfl, .inl rfl⟩
  · rename_i plain
    split
    · exact ⟨_, _, rfl, .inl rfl⟩
    · rename_i ordinary
      exact ⟨_, _, rfl, .inr ⟨rfl, fun high => ordinary (.inr (.inl high)),
        (ne_of_shortEscape? plain).1⟩⟩

theorem escape_readsBack (same : escape unit ++ rest = escape unit' ++ rest') :
    unit = unit' ∧ rest = rest' := by
  unfold escape at same
  cases short : shortEscape? unit with
  | some letter =>
    cases short' : shortEscape? unit' with
    | some letter' =>
      simp only [short, short', List.cons_append, List.nil_append, List.cons.injEq,
        true_and] at same
      obtain ⟨rfl, tail⟩ := same
      exact ⟨shortEscape?_injective short short', tail⟩
    | none =>
      simp only [short, short'] at same
      split at same
      · exact absurd (List.cons.inj (List.cons.inj same).2).1 (shortEscape?_ne short)
      · exact absurd (List.cons.inj same).1.symm (ne_of_shortEscape? short').2
  | none =>
    cases short' : shortEscape? unit' with
    | some letter' =>
      simp only [short, short'] at same
      split at same
      · exact absurd (List.cons.inj (List.cons.inj same).2).1.symm (shortEscape?_ne short')
      · exact absurd (List.cons.inj same).1 (ne_of_shortEscape? short).2
    | none =>
      simp only [short, short'] at same
      split at same
      · rename_i unicode
        split at same
        · rename_i unicode'
          exact unicodeEscape_readsBack (small_of_unicode unicode) (small_of_unicode unicode') same
        · exact absurd (List.cons.inj same).1.symm (ne_of_shortEscape? short').2
      · split at same
        · exact absurd (List.cons.inj same).1 (ne_of_shortEscape? short).2
        · exact List.cons.inj same

end Reading

/-- The units that are quoted at once, and what they become. -/
inductive Chunk : Text → Text → Prop
  | pair {high low : Nat} (isHigh : High high) : Chunk [high, low] [high, low]
  | single (unit : Nat) : Chunk [unit] (escape unit)

theorem Chunk.readsBack {taken taken' chunk chunk' rest rest' : Text} (first : Chunk taken chunk)
    (second : Chunk taken' chunk') (same : chunk ++ rest = chunk' ++ rest') :
    taken = taken' ∧ rest = rest' := by
  have differs : ∀ {high : Nat} {unit : Nat} {tail tail' : Text}, High high →
      high :: tail ≠ escape unit ++ tail' := by
    intro high unit tail tail' isHigh same
    obtain ⟨head, more, text, escaped | ⟨plain, notHigh, _⟩⟩ := escape_head unit
    · rw [text, List.cons_append] at same
      have isEscape := (List.cons.inj same).1.trans escaped
      unfold High at isHigh
      omega
    · rw [text, List.cons_append] at same
      rw [(List.cons.inj same).1.trans plain] at isHigh
      exact notHigh isHigh
  cases first with
  | pair isHigh =>
    cases second with
    | pair isHigh' =>
      simp only [List.cons_append, List.nil_append, List.cons.injEq] at same
      obtain ⟨rfl, rfl, tail⟩ := same
      exact ⟨rfl, tail⟩
    | single unit => exact absurd same (differs isHigh)
  | single unit =>
    cases second with
    | pair isHigh => exact absurd same.symm (differs isHigh)
    | single unit' =>
      obtain ⟨rfl, tail⟩ := escape_readsBack same
      exact ⟨rfl, tail⟩

/-- Quoting takes one chunk after the other. -/
theorem quoteUnits_cons (unit : Nat) (text : Text) :
    ∃ taken chunk rest, unit :: text = taken ++ rest ∧ taken ≠ [] ∧ Chunk taken chunk ∧
      quoteUnits (unit :: text) = chunk ++ quoteUnits rest := by
  cases text with
  | nil => exact ⟨[unit], escape unit, [], rfl, by simp, .single unit, by simp [quoteUnits]⟩
  | cons next rest =>
    by_cases pair : High unit ∧ Low next
    · exact ⟨[unit, next], [unit, next], rest, rfl, by simp, .pair pair.1,
        by rw [quoteUnits, if_pos pair]; rfl⟩
    · exact ⟨[unit], escape unit, next :: rest, rfl, by simp, .single unit,
        by rw [quoteUnits, if_neg pair]⟩

/-- No chunk starts with a quotation mark. -/
theorem Chunk.head {taken chunk : Text} (chunked : Chunk taken chunk) :
    ∃ first tail, chunk = first :: tail ∧ first ≠ 34 := by
  cases chunked with
  | pair isHigh =>
    refine ⟨_, _, rfl, ?_⟩
    unfold High at isHigh
    omega
  | single unit =>
    obtain ⟨first, tail, text, escaped | ⟨_, _, plain⟩⟩ := escape_head unit
    · exact ⟨first, tail, text, by omega⟩
    · exact ⟨first, tail, text, plain⟩

theorem quoteUnits_ne (unit : Nat) (text rest rest' : Text) :
    34 :: rest ≠ quoteUnits (unit :: text) ++ 34 :: rest' := by
  intro same
  obtain ⟨_, chunk, _, _, _, chunked, quoted⟩ := quoteUnits_cons unit text
  obtain ⟨first, tail, rfl, differs⟩ := chunked.head
  rw [quoted] at same
  exact differs (List.cons.inj same).1.symm

theorem quoteUnits_readsBack
    (size : Nat) (text text' rest rest' : Text) (short : text.length ≤ size)
    (same : quoteUnits text ++ 34 :: rest = quoteUnits text' ++ 34 :: rest') :
    text = text' ∧ rest = rest' := by
  induction size generalizing text text' with
  | zero =>
    obtain rfl := List.eq_nil_of_length_eq_zero (Nat.le_zero.mp short)
    cases text' with
    | nil => exact ⟨rfl, (List.cons.inj same).2⟩
    | cons unit text' => exact absurd same (quoteUnits_ne unit text' rest rest')
  | succ size ih =>
    cases text with
    | nil =>
      cases text' with
      | nil => exact ⟨rfl, (List.cons.inj same).2⟩
      | cons unit text' => exact absurd same (quoteUnits_ne unit text' rest rest')
    | cons unit text =>
      cases text' with
      | nil => exact absurd same.symm (quoteUnits_ne unit text rest' rest)
      | cons unit' text' =>
        obtain ⟨taken, chunk, more, split, some, chunked, quoted⟩ := quoteUnits_cons unit text
        obtain ⟨taken', chunk', more', split', _, chunked', quoted'⟩ := quoteUnits_cons unit' text'
        rw [quoted, quoted', List.append_assoc, List.append_assoc] at same
        obtain ⟨rfl, sameRest⟩ := chunked.readsBack chunked' same
        have shorter : more.length ≤ size := by
          have lengths := congrArg List.length split
          have positive := List.length_pos_iff.mpr some
          rw [List.length_append] at lengths
          omega
        obtain ⟨rfl, done⟩ := ih more more' shorter sameRest
        exact ⟨split.trans split'.symm, done⟩

/-- A quoted text is known from the start of what it stands in. -/
theorem quote_readsBack
    {text text' rest rest' : Text} (same : quote text ++ rest = quote text' ++ rest') :
    text = text' ∧ rest = rest' := by
  simp only [quote, List.cons_append, List.append_assoc, List.nil_append,
    List.cons.injEq, true_and] at same
  exact quoteUnits_readsBack text.length text text' rest rest' (Nat.le_refl _) same

end Text

end Foundation
end Scrum4Me
