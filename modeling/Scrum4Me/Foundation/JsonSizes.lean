import Scrum4Me.Foundation.JsonTree
import Mathlib.Algebra.Order.BigOperators.Group.List
import Mathlib.Algebra.Order.Ring.Nat

/-!
# The sizes of JSON texts

The text of a list or an object is as long as its parts, the separators and the two
brackets. Quoting takes the parts of a text one by one, unless a pair is split, so that a
longer beginning has a longer quotation.
-/

namespace Scrum4Me
namespace Foundation

theorem length_joined (separator : υ) (parts : List (List υ)) :
    (joined separator parts).length = (parts.map List.length).sum + (parts.length - 1) := by
  cases parts with
  | nil => rfl
  | cons part rest =>
    have continued : (rest.flatMap fun next => separator :: next).length =
        (rest.map List.length).sum + rest.length := by
      induction rest with
      | nil => rfl
      | cons next rest ih =>
        rw [List.flatMap_cons, List.length_append, ih, List.length_cons,
          List.map_cons, List.sum_cons, List.length_cons]
        omega
    rw [joined, List.length_append, continued, List.map_cons, List.sum_cons, List.length_cons]
    omega

namespace JsonTree

/-- The length of the text. -/
def size (json : JsonTree) : Nat := json.print.length

theorem size_array (items : List JsonTree) :
    (array items).size = (items.map size).sum + (items.length - 1) + 2 := by
  rw [size, print, List.length_append, List.length_cons, length_joined, printItems_eq,
    List.map_map, List.length_map, List.length_singleton]
  rfl

theorem size_object (fields : List (Text × JsonTree)) :
    (object fields).size = (fields.map fun entry =>
      (Text.quote entry.1).length + 1 + entry.2.size).sum + (fields.length - 1) + 2 := by
  have sizes : fields.map (List.length ∘ printField) = fields.map fun entry =>
      (Text.quote entry.1).length + 1 + entry.2.size := by
    refine List.map_congr_left fun entry _ => ?_
    rw [Function.comp, printField, List.length_append, List.length_cons, size]
    omega
  rw [size, print, List.length_append, List.length_cons, length_joined, printFields_eq,
    List.map_map, List.length_map, List.length_singleton, sizes]

theorem size_string (text : Text) : (string text).size = (Text.quoteUnits text).length + 2 := by
  rw [size, print, Text.quote, List.length_append, List.length_cons, List.length_singleton]

end JsonTree

namespace Text

/-- The beginning ends between the halves of a pair. -/
def Splits (text : Text) (length : Nat) : Prop :=
  ∃ high ∈ (text.take length).getLast?, ∃ low ∈ (text.drop length).head?, High high ∧ Low low

theorem quoteUnits_append {text rest : Text}
    (apart : ∀ high ∈ text.getLast?, ∀ low ∈ rest.head?, ¬ (High high ∧ Low low)) :
    quoteUnits (text ++ rest) = quoteUnits text ++ quoteUnits rest := by
  fun_induction quoteUnits text with
  | case1 => rfl
  | case2 unit =>
    cases rest with
    | nil => rw [List.append_nil, quoteUnits, quoteUnits, List.append_nil]
    | cons next rest => rw [List.singleton_append, quoteUnits, if_neg (apart unit rfl next rfl)]
  | case3 unit next more pair ih =>
    rw [List.cons_append, List.cons_append, quoteUnits, if_pos pair, ih]
    · rfl
    · intro high last
      refine apart high ?_
      rw [List.getLast?_cons_cons, List.getLast?_cons, last]
      rfl
  | case4 unit next more pair ih =>
    rw [List.cons_append, List.cons_append, quoteUnits, if_neg pair, ← List.cons_append,
      ih, List.append_assoc]
    intro high last
    refine apart high ?_
    rw [List.getLast?_cons_cons]
    exact last

/-- A longer beginning has a longer quotation, unless the shorter one splits a pair. -/
theorem quoteUnits_take_le {text ending : Text} {short long : Nat}
    (less : short ≤ long) (apart : ¬ Splits text short) (notLow : ∀ low ∈ ending.head?, ¬ Low low) :
    (quoteUnits (text.take short ++ ending)).length ≤
      (quoteUnits (text.take long ++ ending)).length := by
  have more : text.take long = text.take short ++ (text.take long).drop short := by
    conv_lhs => rw [← List.take_append_drop short (text.take long), List.take_take,
      Nat.min_eq_left less]
  have between : ∀ high ∈ (text.take short).getLast?,
      ∀ low ∈ ((text.take long).drop short ++ ending).head?, ¬ (High high ∧ Low low) := by
    rintro high last low first ⟨isHigh, isLow⟩
    rcases Option.eq_none_or_eq_some (((text.take long).drop short).head?) with none' | ⟨next, some'⟩
    · rw [List.head?_append, none', Option.none_or] at first
      exact notLow low first isLow
    · rw [List.head?_append, some', Option.some_or] at first
      cases first
      refine apart ⟨high, last, low, ?_, isHigh, isLow⟩
      rw [List.drop_take] at some'
      rw [List.head?_take] at some'
      split at some'
      · cases some'
      · exact some'
  rw [more, List.append_assoc, quoteUnits_append between,
    quoteUnits_append (fun high _ low first both => notLow low first both.2),
    quoteUnits_append (fun high _ low first both => notLow low first both.2),
    List.length_append, List.length_append, List.length_append]
  omega

end Text

end Foundation
end Scrum4Me
