import Mathlib.Data.List.Basic

/-!
# Pieces of a list

Lists that stand in a longer one, one after the other and without overlap.
-/

namespace Scrum4Me
namespace Foundation

/-- The pieces stand in the list in this order. -/
def InOrder : List (List α) → List α → Prop
  | [], _ => True
  | piece :: rest, whole =>
      ∃ before after, whole = before ++ piece ++ after ∧ InOrder rest after

@[simp] theorem inOrder_nil (whole : List α) : InOrder [] whole := trivial

variable {whole : List α}

/-- Pieces stay where they are when the list grows at its end, and one more can
follow them. -/
theorem InOrder.append {pieces : List (List α)} (inOrder : InOrder pieces whole)
    {more : List (List α)} {addition : List α} (added : InOrder more addition) :
    InOrder (pieces ++ more) (whole ++ addition) := by
  induction pieces generalizing whole with
  | nil =>
    cases more with
    | nil => trivial
    | cons piece rest =>
      obtain ⟨before, after, rfl, later⟩ := added
      exact ⟨whole ++ before, after, by simp, later⟩
  | cons piece rest ih =>
    obtain ⟨before, after, rfl, later⟩ := inOrder
    exact ⟨before, after ++ addition, by simp, ih later⟩

theorem InOrder.isInfix {piece : List α} {rest : List (List α)}
    (inOrder : InOrder (piece :: rest) whole) :
    piece <:+: whole := by
  obtain ⟨before, after, whole, -⟩ := inOrder
  exact ⟨before, after, whole.symm⟩

theorem InOrder.singleton (before piece after : List α) :
    InOrder [piece] (before ++ piece ++ after) :=
  ⟨before, after, rfl, trivial⟩

/-- What a further row adds to a column. -/
theorem filterMap_snoc (column : α → Option β) (rows : List α) (row : α) :
    (rows ++ [row]).filterMap column = rows.filterMap column ++ (column row).toList := by
  rw [List.filterMap_append, List.filterMap_cons]
  cases column row <;> rfl

end Foundation
end Scrum4Me
