import Mathlib.Data.List.Sort
import Mathlib.Data.Prod.Lex

/-!
# Batches from the head of a queue

`ORDER BY key LIMIT n` over rows with distinct keys: a row is in the batch exactly
when fewer than `n` rows come before it, so that the rows that stay in front of it
decide when its turn comes.
-/

namespace Scrum4Me
namespace Foundation

variable [LinearOrder κ] {key : α → κ} {rows : List α}

/-- `ORDER BY key`. -/
def oldestFirst (key : α → κ) (rows : List α) : List α :=
  rows.insertionSort fun first second => key first ≤ key second

@[simp] theorem mem_oldestFirst {row : α} : row ∈ oldestFirst key rows ↔ row ∈ rows :=
  List.mem_insertionSort _

theorem perm_oldestFirst : List.Perm (oldestFirst key rows) rows :=
  List.perm_insertionSort _ _

theorem pairwise_oldestFirst :
    (oldestFirst key rows).Pairwise fun first second => key first ≤ key second := by
  have total : Std.Total fun first second : α => key first ≤ key second :=
    ⟨fun first second => le_total (key first) (key second)⟩
  have transitive : IsTrans α fun first second => key first ≤ key second :=
    ⟨fun _ _ _ first second => le_trans first second⟩
  exact List.pairwise_insertionSort _ _

/-- With distinct keys the order is strict. -/
theorem pairwise_lt_oldestFirst (distinct : (rows.map key).Nodup) :
    (oldestFirst key rows).Pairwise fun first second => key first < key second := by
  have apart : (oldestFirst key rows).Pairwise fun first second =>
      key first ≠ key second :=
    List.pairwise_map.mp ((perm_oldestFirst.map key).nodup_iff.mpr distinct)
  exact (pairwise_oldestFirst.and apart).imp fun both => lt_of_le_of_ne both.1 both.2

/-- With distinct keys the order of the table does not matter. -/
theorem oldestFirst_eq_of_perm
    {rows' : List α} (distinct : (rows.map key).Nodup) (same : List.Perm rows rows') :
    oldestFirst key rows = oldestFirst key rows' := by
  have distinct' : (rows'.map key).Nodup := (same.map key).nodup_iff.mp distinct
  exact List.Perm.eq_of_pairwise (fun _ _ _ _ first second => absurd first (lt_asymm second))
    (pairwise_lt_oldestFirst distinct) (pairwise_lt_oldestFirst distinct')
    (perm_oldestFirst.trans (same.trans perm_oldestFirst.symm))

/-- A change of the rows that leaves their keys leaves their order. -/
theorem oldestFirst_map {change : α → α} (keeps : ∀ row ∈ rows, key (change row) = key row) :
    oldestFirst key (rows.map change) = (oldestFirst key rows).map change := by
  refine (List.map_insertionSort _ _ change rows fun first member second member' => ?_).symm
  rw [keeps first member, keeps second member']

/-- In a strictly ordered list a row is among the first ones when few enough rows
come before it. -/
theorem mem_take_iff_of_pairwise {row : α} {limit : Nat}
    (ordered : rows.Pairwise fun first second => key first < key second) (member : row ∈ rows) :
    row ∈ rows.take limit ↔ rows.countP (fun other => key other < key row) < limit := by
  induction rows generalizing limit with
  | nil => exact absurd member List.not_mem_nil
  | cons head rest ih =>
    obtain ⟨first, later⟩ := List.pairwise_cons.mp ordered
    cases limit with
    | zero => simp
    | succ limit =>
      rw [List.take_succ_cons, List.mem_cons, List.countP_cons]
      rcases List.mem_cons.mp member with rfl | member
      · have none : rest.countP (fun other => key other < key row) = 0 :=
          List.countP_eq_zero.mpr fun other found older =>
            absurd (of_decide_eq_true older) (lt_asymm (first other found))
        simp [none]
      · have older := first row member
        have apart : row ≠ head := fun same => absurd older (by
          rw [same]
          exact lt_irrefl _)
        rw [ih later member, if_pos (decide_eq_true older)]
        simp [apart]

/-- A row is in the batch when fewer rows than the limit are older. -/
theorem mem_take_oldestFirst_iff
    {row : α} {limit : Nat} (distinct : (rows.map key).Nodup) (member : row ∈ rows) :
    row ∈ (oldestFirst key rows).take limit ↔
      rows.countP (fun other => key other < key row) < limit := by
  rw [mem_take_iff_of_pairwise (pairwise_lt_oldestFirst distinct)
    (mem_oldestFirst.mpr member), perm_oldestFirst.countP_eq]

/-- The rows of a batch, counted in the table. -/
theorem countP_take_oldestFirst [DecidableEq α]
    (nodup : rows.Nodup) (limit : Nat) (counted : α → Bool) :
    rows.countP (fun row =>
        row ∈ (oldestFirst key rows).take limit ∧ counted row = true) =
      ((oldestFirst key rows).take limit).countP counted := by
  have sorted : (oldestFirst key rows).Nodup := perm_oldestFirst.nodup_iff.mpr nodup
  have same : (rows.filter fun row => row ∈ (oldestFirst key rows).take limit).Perm
      ((oldestFirst key rows).take limit) := by
    apply (List.perm_ext_iff_of_nodup (nodup.filter _) (sorted.sublist (List.take_sublist _ _))).mpr
    intro row
    rw [List.mem_filter]
    constructor
    · exact fun both => of_decide_eq_true both.2
    · exact fun taken => ⟨mem_oldestFirst.mp (List.mem_of_mem_take taken), decide_eq_true taken⟩
  rw [← same.countP_eq, List.countP_filter]
  congr 1
  funext row
  simp [and_comm]

/-- A count by cases. -/
theorem countP_by_cases (counted chosen : α → Prop) [DecidablePred counted] [DecidablePred chosen]
    (rows : List α) :
    rows.countP (fun row => counted row) = rows.countP (fun row => counted row ∧ chosen row) +
        rows.countP (fun row => counted row ∧ ¬ chosen row) := by
  induction rows with
  | nil => rfl
  | cons row rest ih =>
    simp only [List.countP_cons, ih]
    by_cases counts : counted row <;> by_cases chooses : chosen row <;>
      simp [counts, chooses] <;> omega

end Foundation
end Scrum4Me
