import Mathlib.Data.List.Sort
import Mathlib.Data.Prod.Lex
import Mathlib.Order.WithBot

/-!
# Queries in descending order

`ORDER BY key DESC`, with or without a limit. The first row is a greatest one,
and a limit keeps every row that few enough others come before.
-/

namespace Scrum4Me
namespace Foundation

variable [LinearOrder κ] {key : α → κ} {rows : List α}

/-- `ORDER BY key DESC`. -/
def newestFirst (key : α → κ) (rows : List α) : List α :=
  rows.insertionSort fun first second => key second ≤ key first

variable {row : α}

@[simp] theorem mem_newestFirst : row ∈ newestFirst key rows ↔ row ∈ rows :=
  List.mem_insertionSort _

theorem perm_newestFirst : List.Perm (newestFirst key rows) rows :=
  List.perm_insertionSort _ _

theorem pairwise_newestFirst :
    (newestFirst key rows).Pairwise fun first second => key second ≤ key first := by
  have total : Std.Total fun first second : α => key second ≤ key first :=
    ⟨fun first second => le_total (key second) (key first)⟩
  have transitive : IsTrans α fun first second => key second ≤ key first :=
    ⟨fun _ _ _ first second => le_trans second first⟩
  exact List.pairwise_insertionSort _ _

/-- The newest row. -/
theorem head?_newestFirst (first : (newestFirst key rows).head? = some row) :
    row ∈ rows ∧ ∀ other ∈ rows, key other ≤ key row := by
  obtain ⟨rest, sorted⟩ := List.head?_eq_some_iff.1 first
  have pairwise := @pairwise_newestFirst _ _ _ key rows
  rw [sorted, List.pairwise_cons] at pairwise
  refine ⟨mem_newestFirst.1 (sorted ▸ List.mem_cons_self), ?_⟩
  intro other member
  have among : other ∈ row :: rest := sorted ▸ mem_newestFirst.2 member
  rcases List.mem_cons.1 among with rfl | later
  · exact le_refl _
  · exact pairwise.1 other later

theorem head?_newestFirst_eq_none : (newestFirst key rows).head? = none ↔ rows = [] := by
  rw [List.head?_eq_none_iff]
  constructor
  · intro empty
    exact List.eq_nil_iff_forall_not_mem.2 fun row member =>
      absurd (mem_newestFirst.2 member) (empty ▸ List.not_mem_nil)
  · rintro rfl
    rfl

/-- A row survives a limit that leaves room for those that are not older. -/
theorem mem_take_newestFirst {limit : Nat} (member : row ∈ rows)
    (few : rows.countP (fun other => key row ≤ key other) ≤ limit) :
    row ∈ (newestFirst key rows).take limit := by
  have among : row ∈ newestFirst key rows := mem_newestFirst.2 member
  have pairwise := @pairwise_newestFirst _ _ _ key rows
  rw [← (@perm_newestFirst _ _ _ key rows).countP_eq] at few
  rw [← List.take_append_drop limit (newestFirst key rows)] at among pairwise few
  rcases List.mem_append.1 among with kept | dropped
  · exact kept
  · -- Otherwise the limit is exhausted by rows that are not older.
    have newer : ∀ other ∈ (newestFirst key rows).take limit,
        key row ≤ key other := fun other before =>
      (List.pairwise_append.1 pairwise).2.2 other before row dropped
    have full : ((newestFirst key rows).take limit).length = limit := by
      rw [List.length_take]
      have some : 0 < ((newestFirst key rows).drop limit).length := List.length_pos_of_mem dropped
      rw [List.length_drop] at some
      omega
    have all : ((newestFirst key rows).take limit).countP
        (fun other => key row ≤ key other) = limit := by
      rw [List.countP_eq_length.2 (by simpa using newer), full]
    have own : 0 < ((newestFirst key rows).drop limit).countP (fun other => key row ≤ key other) :=
      List.countP_pos_iff.2 ⟨row, dropped, by simp⟩
    rw [List.countP_append, all] at few
    omega

/-- A change that keeps the keys keeps the order. -/
theorem newestFirst_map {change : α → α} (kept : ∀ row ∈ rows, key (change row) = key row) :
    newestFirst key (rows.map change) = (newestFirst key rows).map change := by
  refine (List.map_insertionSort _ _ change rows ?_).symm
  intro first firstMember second secondMember
  rw [kept first firstMember, kept second secondMember]

end Foundation
end Scrum4Me
