import Scrum4Me.Foundation.CodeUnits
import Mathlib.Data.List.DropRight

/-!
# Patterns

Regular expressions as they are matched: greedily, with the next choice tried where the
first one fails. `run` lists the ways to match at one place in the order in which they
are tried; a search takes the first way at the first place that has one.
-/

namespace Scrum4Me
namespace Foundation

/-- `\s`, and what `trim` removes. -/
def Text.Space (unit : Nat) : Prop :=
  9 ≤ unit ∧ unit ≤ 13 ∨ unit = 32 ∨ unit = 160 ∨ unit = 5760 ∨
    8192 ≤ unit ∧ unit ≤ 8202 ∨ unit = 8232 ∨ unit = 8233 ∨ unit = 8239 ∨ unit = 8287 ∨
      unit = 12288 ∨ unit = 65279

instance : DecidablePred Text.Space := fun _ => inferInstanceAs (Decidable (_ ∨ _))

/-- What `.` does not match. -/
def Text.LineEnd (unit : Nat) : Prop := unit = 10 ∨ unit = 13 ∨ unit = 8232 ∨ unit = 8233

instance : DecidablePred Text.LineEnd := fun _ => inferInstanceAs (Decidable (_ ∨ _))

/-- `\w`. -/
def Text.Word (unit : Nat) : Prop :=
  48 ≤ unit ∧ unit ≤ 57 ∨ 65 ≤ unit ∧ unit ≤ 90 ∨ unit = 95 ∨ 97 ≤ unit ∧ unit ≤ 122

instance : DecidablePred Text.Word := fun _ => inferInstanceAs (Decidable (_ ∨ _))

def Text.trim (text : Text) : Text := (text.dropWhile (Space ·)).rdropWhile (Space ·)

theorem Text.space_of_trim {text : Text} (blank : Text.trim text = []) :
    ∀ unit ∈ text, Text.Space unit := by
  have dropped : ∀ front : Text, front.rdropWhile (Text.Space ·) = [] →
      ∀ unit ∈ front, Text.Space unit := by
    intro front none unit member
    have all := List.rdropWhile_eq_nil_iff.mp none unit member
    exact of_decide_eq_true all
  intro unit member
  rw [← List.takeWhile_append_dropWhile (p := fun unit => decide (Text.Space unit)) (l := text)]
    at member
  rcases List.mem_append.mp member with front | back
  · have held := List.mem_takeWhile_imp (p := fun unit => decide (Text.Space unit)) front
    exact of_decide_eq_true held
  · exact dropped _ blank unit back

/-- The code units of a plain text. -/
def Text.units (text : String) : Text := text.toList.map Char.toNat

inductive Pattern
  /-- One unit. -/
  | one (accepts : Nat → Bool)
  | literal (text : Text)
  /-- As many units as there are, at least and at most so many. -/
  | many (accepts : Nat → Bool) (least : Nat) (most : Option Nat)
  | optional (inner : Pattern)
  | either (first second : Pattern)
  | append (first second : Pattern)
  | group (inner : Pattern)
  | wordBoundary
  | inputStart
  /-- `^` of a pattern with the flag `m`. -/
  | lineStart
  | inputEnd

/-- A place in a text: the unit before it, and what follows. -/
structure Place where
  previous : Option Nat
  rest : Text

/-- Where a match ends, and its groups. -/
structure Match where
  ends : Place
  groups : List Text

namespace Place

def start (text : Text) : Place := ⟨none, text⟩

def advance (place : Place) (count : Nat) : Place :=
  ⟨(place.rest.take count).getLast?.or place.previous, place.rest.drop count⟩

/-- What lies between two places of one text. -/
def upTo (place later : Place) : Text :=
  place.rest.take (place.rest.length - later.rest.length)

end Place

namespace Pattern

/-- The counts that a repetition tries. -/
def counts (accepts : Nat → Bool) (least : Nat) (most : Option Nat) (rest : Text) : List Nat :=
  let available := (rest.takeWhile accepts).length
  let longest := most.elim available (min available)
  ((List.range (longest + 1)).filter (least ≤ ·)).reverse

def run : Pattern → Place → List Match
  | .one accepts, place =>
      if place.rest.head?.any accepts then [⟨place.advance 1, []⟩] else []
  | .literal text, place =>
      if text.isPrefixOf place.rest then [⟨place.advance text.length, []⟩] else []
  | .many accepts least most, place =>
      (counts accepts least most place.rest).map fun count => ⟨place.advance count, []⟩
  | .optional inner, place => run inner place ++ [⟨place, []⟩]
  | .either first second, place => run first place ++ run second place
  | .append first second, place =>
      (run first place).flatMap fun found =>
        (run second found.ends).map fun later => ⟨later.ends, found.groups ++ later.groups⟩
  | .group inner, place =>
      (run inner place).map fun found =>
        ⟨found.ends, place.upTo found.ends :: found.groups⟩
  | .wordBoundary, place =>
      if place.previous.any (Text.Word ·) ≠ place.rest.head?.any (Text.Word ·) then
        [⟨place, []⟩]
      else []
  | .inputStart, place => if place.previous = none then [⟨place, []⟩] else []
  | .lineStart, place => if place.previous.all (Text.LineEnd ·) then [⟨place, []⟩] else []
  | .inputEnd, place => if place.rest = [] then [⟨place, []⟩] else []

/-- A match that was found, and what stands before it. -/
structure Found where
  before : Text
  matched : Match

/-- The first match from a place on. -/
def search (pattern : Pattern) : Option Nat → Text → Option Found
  | previous, [] => (pattern.run ⟨previous, []⟩).head?.map fun found => ⟨[], found⟩
  | previous, unit :: rest =>
      ((pattern.run ⟨previous, unit :: rest⟩).head?.map fun found => ⟨[], found⟩).or
        ((pattern.search (some unit) rest).map fun found =>
          ⟨unit :: found.before, found.matched⟩)

/-- `pattern.test(text)`. -/
def test (pattern : Pattern) (text : Text) : Bool := (pattern.search none text).isSome

/-- The matches that `exec` finds one after the other with the flag `g`; a match takes at
least one unit. -/
def searchAll (pattern : Pattern) : Nat → Place → List Match
  | 0, _ => []
  | fuel + 1, place =>
      (pattern.search place.previous place.rest).elim [] fun found =>
        found.matched :: pattern.searchAll fuel found.matched.ends

def execAll (pattern : Pattern) (text : Text) : List Match :=
  pattern.searchAll (text.length + 1) (Place.start text)

/-- `text.replace(pattern, replacement)` with the flag `g`. -/
def replaceFrom (pattern : Pattern) (replacement : Text) : Nat → Place → Text
  | 0, place => place.rest
  | fuel + 1, place =>
      (pattern.search place.previous place.rest).elim place.rest fun found =>
        found.before ++ (replacement ++ pattern.replaceFrom replacement fuel found.matched.ends)

def replaceAll (pattern : Pattern) (replacement : Text) (text : Text) : Text :=
  pattern.replaceFrom replacement (text.length + 1) (Place.start text)

/-- One after the other. -/
def sequence : List Pattern → Pattern
  | [] => .literal []
  | [pattern] => pattern
  | pattern :: rest => .append pattern (sequence rest)

@[simp] theorem sequence_singleton (pattern : Pattern) : sequence [pattern] = pattern := rfl

@[simp] theorem sequence_cons (pattern next : Pattern) (rest : List Pattern) :
    sequence (pattern :: next :: rest) = .append pattern (sequence (next :: rest)) := rfl

/-- A small letter of ASCII for each capital one. -/
def lower (unit : Nat) : Nat := if 65 ≤ unit ∧ unit ≤ 90 then unit + 32 else unit

/-- A word in small letters, matched with the flag `i`. -/
def caseless (word : String) : Pattern :=
  sequence ((Text.units word).map fun letter => .one fun unit => lower unit = letter)

/-! ## Where nothing matches -/

variable {accepts : Nat → Bool} {pattern : Pattern}

theorem search_eq_none {text : Text}
    (fails : ∀ previous rest, rest <:+ text → pattern.run ⟨previous, rest⟩ = [])
    (previous : Option Nat) :
    pattern.search previous text = none := by
  induction text generalizing previous with
  | nil => rw [search, fails previous [] List.suffix_rfl]; rfl
  | cons unit text ih =>
    rw [search, fails previous _ List.suffix_rfl, ih fun previous rest suffix =>
      fails previous rest (suffix.trans (List.suffix_cons unit text))]
    rfl

theorem execAll_eq_nil {text : Text}
    (fails : ∀ previous rest, rest <:+ text → pattern.run ⟨previous, rest⟩ = []) :
    pattern.execAll text = [] := by
  rw [execAll, searchAll, Place.start, search_eq_none fails, Option.elim_none]

/-! ## Patterns for a whole text -/

theorem head?_eq_some_of_all
    {elements : List α} {only : α → Prop} (all : ∀ element ∈ elements, only element)
    (some' : elements ≠ []) :
    ∃ first, elements.head? = some first ∧ only first := by
  obtain ⟨first, rest, rfl⟩ := List.exists_cons_of_ne_nil some'
  exact ⟨first, rfl, all first List.mem_cons_self⟩

/-- A pattern that starts with `^` is tried at the start only. -/
theorem search_inputStart (pattern : Pattern) (text : Text) :
    (Pattern.append .inputStart pattern).search none text =
      (pattern.run (Place.start text)).head?.map fun found => ⟨[], found⟩ := by
  have later : ∀ (text : Text) (unit : Nat),
      (Pattern.append .inputStart pattern).search (some unit) text = none := by
    intro text
    induction text with
    | nil =>
      intro unit
      simp [search, run]
    | cons next rest ih =>
      intro unit
      simp [search, run, ih next]
  have first : (Pattern.append .inputStart pattern).run (Place.start text) =
      pattern.run (Place.start text) := by
    simp [run, Place.start]
  cases text with
  | nil =>
    rw [search]
    exact congrArg _ (congrArg List.head? first)
  | cons unit rest =>
    rw [search, later rest unit, Option.map_none, Option.or_none]
    exact congrArg _ (congrArg List.head? first)

/-- A literal at the start is passed over. -/
theorem run_literal (pattern : Pattern) (sign name : Text) :
    (Pattern.append (.literal sign) pattern).run (Place.start (sign ++ name)) =
      pattern.run ((Place.start (sign ++ name)).advance sign.length) := by
  simp [run, Place.start]

theorem advance_start (sign name : Text) :
    ((Place.start (sign ++ name)).advance sign.length).rest = name := by
  simp [Place.start, Place.advance]

theorem mem_counts {least count : Nat} {rest : Text} :
    count ∈ counts accepts least none rest ↔
      least ≤ count ∧ count ≤ (rest.takeWhile accepts).length := by
  simp [counts, Nat.lt_succ_iff, and_comm]

theorem takeWhile_length_le (accepts : Nat → Bool) (rest : Text) :
    (rest.takeWhile accepts).length ≤ rest.length :=
  (List.takeWhile_sublist _).length_le

/-- `(…+)$` matches the whole rest or nothing. -/
theorem run_group_end {place : Place} {found : Match} (matched : found ∈
      (Pattern.append (.group (.many accepts 1 none)) .inputEnd).run place) :
    found.groups = [place.rest] ∧ place.rest ≠ [] ∧ ∀ unit ∈ place.rest, accepts unit = true := by
  simp only [run, List.mem_flatMap, List.mem_map] at matched
  obtain ⟨group, ⟨inner, ⟨count, counted, rfl⟩, rfl⟩, last, ends, rfl⟩ := matched
  obtain ⟨least, most⟩ := mem_counts.mp counted
  have bound := takeWhile_length_le accepts place.rest
  split at ends
  · rename_i done
    rw [List.mem_singleton.mp ends]
    have short : place.rest.length ≤ count := List.drop_eq_nil_iff.mp done
    have whole : place.rest.takeWhile accepts = place.rest :=
      (List.takeWhile_sublist _).eq_of_length_le (by omega)
    refine ⟨?_, fun none => ?_, fun unit member => ?_⟩
    · change place.upTo (place.advance count) :: [] ++ [] = _
      rw [Place.upTo, done]
      simp
    · rw [none] at most
      exact absurd (least.trans most) (by simp)
    · rw [← whole] at member
      exact List.mem_takeWhile_imp member
  · exact absurd ends List.not_mem_nil

theorem run_group_end_ne_nil {accepts : Nat → Bool} {place : Place} (some' : place.rest ≠ [])
    (all : ∀ unit ∈ place.rest, accepts unit = true) :
    (Pattern.append (.group (.many accepts 1 none)) .inputEnd).run place ≠ [] := by
  have whole : place.rest.takeWhile accepts = place.rest := List.takeWhile_eq_self_iff.mpr all
  have counted : place.rest.length ∈ counts accepts 1 none place.rest := by
    rw [mem_counts, whole]
    exact ⟨List.length_pos_iff.mpr some', le_rfl⟩
  have done : (place.advance place.rest.length).rest = [] := List.drop_length
  refine List.ne_nil_of_mem (a := ⟨place.advance place.rest.length,
    [place.upTo (place.advance place.rest.length)]⟩) ?_
  simp only [run, List.mem_flatMap, List.mem_map]
  exact ⟨_, ⟨_, ⟨_, counted, rfl⟩, rfl⟩, ⟨place.advance place.rest.length, []⟩,
    by rw [if_pos done]; exact List.mem_cons_self, rfl⟩

end Pattern

end Foundation
end Scrum4Me
