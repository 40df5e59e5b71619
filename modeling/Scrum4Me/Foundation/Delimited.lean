import Mathlib.Data.List.Basic
import Mathlib.Tactic.Common

/-!
# Delimited texts

A printer reads back when its text can be told from whatever follows it: two texts that
start alike come from one value and go on alike. Parts between separators, up to a
closing mark, read back if each part does.
-/

namespace Scrum4Me
namespace Foundation

variable {stop : υ → Prop} {print : α → List υ}

/-- The text is at its end, or goes on with a mark that no part contains. -/
def Ended (stop : υ → Prop) (text : List υ) : Prop :=
  ∀ first ∈ text.head?, stop first

@[simp] theorem ended_nil : Ended stop [] := by
  simp [Ended]

@[simp] theorem ended_cons {first : υ} {rest : List υ} :
    Ended stop (first :: rest) ↔ stop first := by
  simp [Ended]

/-- The value is known from the start of a text, as long as the text then ends. -/
def ReadsBack (stop : υ → Prop) (print : α → List υ) (value : α) : Prop :=
  ∀ (other : α) (rest rest' : List υ), Ended stop rest → Ended stop rest' →
    print value ++ rest = print other ++ rest' → value = other ∧ rest = rest'

/-- The text of a part is not empty and does not start with a mark. -/
def StartsInside (stop : υ → Prop) (print : α → List υ) : Prop :=
  ∀ value, ∃ first rest, print value = first :: rest ∧ ¬ stop first

/-- `parts.join(separator)`. -/
def joined (separator : υ) : List (List υ) → List υ
  | [] => []
  | part :: rest => part ++ rest.flatMap fun next => separator :: next

section Joined

variable {separator closing : υ}

theorem ended_continued
    (separates : stop separator) (closes : stop closing) (more : List α) (rest : List υ) :
    Ended stop ((more.map print).flatMap (separator :: ·) ++ closing :: rest) := by
  cases more with
  | nil => simpa using closes
  | cons _ _ => simpa using separates

/-- What follows the first part. -/
theorem continued_readsBack
    (separates : stop separator) (closes : stop closing) (apart : separator ≠ closing)
    (values : List α) (each : ∀ value ∈ values, ReadsBack stop print value)
    (others : List α) (rest rest' : List υ)
    (same : (values.map print).flatMap (separator :: ·) ++ closing :: rest =
      (others.map print).flatMap (separator :: ·) ++ closing :: rest') :
    values = others ∧ rest = rest' := by
  have ends := @ended_continued _ _ stop print _ _ separates closes
  induction values generalizing others with
  | nil =>
    cases others with
    | nil => exact ⟨rfl, List.cons.inj same |>.2⟩
    | cons other others => exact absurd (List.cons.inj same).1 apart.symm
  | cons value values ih =>
    cases others with
    | nil => exact absurd (List.cons.inj same).1 apart
    | cons other others =>
      rw [List.map_cons, List.map_cons, List.flatMap_cons, List.flatMap_cons,
        List.cons_append, List.cons_append, List.append_assoc, List.cons_append,
        List.cons_append, List.append_assoc] at same
      obtain ⟨sameValue, sameRest⟩ := each value List.mem_cons_self other _ _
        (ends values rest) (ends others rest') (List.cons.inj same).2
      obtain ⟨sameValues, done⟩ := ih
        (fun value member => each value (List.mem_cons_of_mem _ member)) others sameRest
      exact ⟨by rw [sameValue, sameValues], done⟩

theorem joined_readsBack
    (separates : stop separator) (closes : stop closing) (apart : separator ≠ closing)
    (inside : StartsInside stop print) (values : List α)
    (each : ∀ value ∈ values, ReadsBack stop print value) (others : List α) (rest rest' : List υ)
    (same : joined separator (values.map print) ++ closing :: rest =
      joined separator (others.map print) ++ closing :: rest') :
    values = others ∧ rest = rest' := by
  have ends := @ended_continued _ _ stop print _ _ separates closes
  cases values with
  | nil =>
    cases others with
    | nil => exact ⟨rfl, (List.cons.inj same).2⟩
    | cons other others =>
      obtain ⟨first, tail, text, within⟩ := inside other
      rw [List.map_cons, joined, text] at same
      exact absurd ((List.cons.inj same).1 ▸ closes) within
  | cons value values =>
    cases others with
    | nil =>
      obtain ⟨first, tail, text, within⟩ := inside value
      rw [List.map_cons, joined, text] at same
      exact absurd ((List.cons.inj same).1.symm ▸ closes) within
    | cons other others =>
      rw [List.map_cons, List.map_cons, joined, joined, List.append_assoc,
        List.append_assoc] at same
      obtain ⟨sameValue, sameRest⟩ := each value List.mem_cons_self other _ _
        (ends values rest) (ends others rest') same
      obtain ⟨sameValues, done⟩ := continued_readsBack separates closes apart values
        (fun value member => each value (List.mem_cons_of_mem _ member)) others
        rest rest' sameRest
      exact ⟨by rw [sameValue, sameValues], done⟩

end Joined

/-- A text over the characters that are no marks. -/
theorem readsBack_of_plain (plain : ∀ value, ∀ character ∈ print value, ¬ stop character)
    (injective : Function.Injective print) (value : α) :
    ReadsBack stop print value := by
  intro other rest rest' ends ends' same
  have texts : ∀ (first second : List υ) (tail tail' : List υ),
      (∀ character ∈ first, ¬ stop character) → (∀ character ∈ second, ¬ stop character) →
      Ended stop tail → Ended stop tail' → first ++ tail = second ++ tail' →
      first = second ∧ tail = tail' := by
    intro first
    induction first with
    | nil =>
      intro second tail tail' _ plain' ends _ same
      cases second with
      | nil => exact ⟨rfl, same⟩
      | cons head second =>
        rw [List.nil_append] at same
        rw [same, List.cons_append, ended_cons] at ends
        exact absurd ends (plain' head List.mem_cons_self)
    | cons head first ih =>
      intro second tail tail' plain plain' ends ends' same
      cases second with
      | nil =>
        rw [List.nil_append] at same
        rw [← same, List.cons_append, ended_cons] at ends'
        exact absurd ends' (plain head List.mem_cons_self)
      | cons head' second =>
        obtain ⟨sameHead, same⟩ := List.cons.inj same
        obtain ⟨sameFirst, sameTail⟩ := ih second tail tail'
          (fun character member => plain character (List.mem_cons_of_mem _ member))
          (fun character member => plain' character (List.mem_cons_of_mem _ member))
          ends ends' same
        exact ⟨by rw [sameHead, sameFirst], sameTail⟩
  obtain ⟨sameText, sameRest⟩ := texts _ _ rest rest' (plain value) (plain other) ends ends' same
  exact ⟨injective sameText, sameRest⟩

end Foundation
end Scrum4Me
