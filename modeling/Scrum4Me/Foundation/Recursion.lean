import Mathlib.Data.List.Dedup
import Mathlib.Data.List.Perm.Subperm
import Mathlib.Logic.Function.Iterate
import Mathlib.Logic.Relation

/-!
# Recursive queries

`WITH RECURSIVE … UNION` keeps a result and a working table. Each round joins the
working table with the recursive term, drops what the result has already, and makes
the rest the new working table, until that is empty. Over finitely many rows it ends,
also where the links form a cycle, and the result is what the start reaches.
-/

namespace Scrum4Me
namespace Foundation

variable [DecidableEq α]

/-- The result so far, and the working table. -/
structure Recursion (α : Type u) where
  result : List α
  working : List α

namespace Recursion

/-- The rows of a round. -/
def found (successors : α → List α) (state : Recursion α) : List α :=
  ((state.working.flatMap successors).filter (· ∉ state.result)).dedup

/-- One round. -/
def step (successors : α → List α) (state : Recursion α) : Recursion α where
  result := state.result ++ state.found successors
  working := state.found successors

/-- The query before its first round. -/
def start (rows : List α) : Recursion α where
  result := rows.dedup
  working := rows.dedup

/-- The query after some rounds. -/
def rounds (successors : α → List α) (rows : List α) (count : Nat) : Recursion α :=
  (step successors)^[count] (start rows)

variable {successors : α → List α} {rows : List α} {state : Recursion α}

theorem mem_found {row : α} :
    row ∈ state.found successors ↔
      row ∉ state.result ∧ ∃ before ∈ state.working, row ∈ successors before := by
  rw [found, List.mem_dedup, List.mem_filter, List.mem_flatMap, decide_eq_true_iff]
  exact and_comm

theorem rounds_succ (count : Nat) :
    rounds successors rows (count + 1) = (rounds successors rows count).step successors :=
  Function.iterate_succ_apply' _ _ _

/-- What every round keeps. -/
structure Sound (successors : α → List α) (rows : List α) (state : Recursion α) :
    Prop where
  distinct : state.result.Nodup
  working : ∀ row ∈ state.working, row ∈ state.result
  begun : ∀ row ∈ rows, row ∈ state.result
  reached : ∀ row ∈ state.result, ∃ first ∈ rows,
    Relation.ReflTransGen (fun before after => after ∈ successors before) first row
  closed : ∀ row ∈ state.result, row ∈ state.working ∨
    ∀ after ∈ successors row, after ∈ state.result

theorem sound_start : (start rows).Sound successors rows where
  distinct := List.nodup_dedup rows
  working := fun _ member => member
  begun := fun _ member => List.mem_dedup.mpr member
  reached := fun row member => ⟨row, List.mem_dedup.mp member, .refl⟩
  closed := fun _ member => .inl member

theorem Sound.step (sound : state.Sound successors rows) :
    (state.step successors).Sound successors rows where
  distinct := by
    refine List.nodup_append.mpr ⟨sound.distinct, List.nodup_dedup _, ?_⟩
    rintro row old _ new rfl
    exact (mem_found.mp new).1 old
  working := fun row member => List.mem_append_right _ member
  begun := fun row member => List.mem_append_left _ (sound.begun row member)
  reached := by
    intro row member
    rcases List.mem_append.mp member with old | new
    · exact sound.reached row old
    · obtain ⟨-, before, inside, after⟩ := mem_found.mp new
      obtain ⟨first, among, path⟩ := sound.reached before (sound.working before inside)
      exact ⟨first, among, path.tail after⟩
  closed := by
    intro row member
    rcases List.mem_append.mp member with old | new
    · refine .inr fun after next => ?_
      by_cases known : after ∈ state.result
      · exact List.mem_append_left _ known
      · rcases sound.closed row old with inside | closed
        · exact List.mem_append_right _ (mem_found.mpr ⟨known, row, inside, next⟩)
        · exact absurd (closed after next) known
    · exact .inl new

theorem sound_rounds (count : Nat) : (rounds successors rows count).Sound successors rows := by
  induction count with
  | zero => exact sound_start
  | succ count ih =>
    rw [rounds_succ]
    exact ih.step

/-- Every round that does not end the query adds a row. -/
theorem rounds_grow (count : Nat) :
    (rounds successors rows count).working = [] ∨
      count < (rounds successors rows count).result.length := by
  induction count with
  | zero =>
    show rows.dedup = [] ∨ 0 < rows.dedup.length
    exact (Nat.eq_zero_or_pos _).imp List.length_eq_zero_iff.mp id
  | succ count ih =>
    rw [rounds_succ]
    rcases ih with ended | grown
    · left
      show found successors _ = []
      simp [found, ended]
    · show found successors _ = [] ∨ count + 1 < (_ ++ found successors _).length
      rcases Nat.eq_zero_or_pos (found successors
          (rounds successors rows count)).length with none | some
      · exact .inl (List.length_eq_zero_iff.mp none)
      · right
        rw [List.length_append]
        omega

/-- Over a table of so many rows the query ends after as many rounds. -/
theorem rounds_end {table : List α} (known : ∀ row ∈ rows, row ∈ table)
    (stays : ∀ row, ∀ after ∈ successors row, after ∈ table) :
    (rounds successors rows table.length).working = [] := by
  rcases @rounds_grow _ _ successors rows table.length with ended | grown
  · exact ended
  · have sound := @sound_rounds _ _ successors rows table.length
    have inside : (rounds successors rows table.length).result ⊆ table := by
      intro row member
      obtain ⟨first, among, path⟩ := sound.reached row member
      cases path with
      | refl => exact known row among
      | tail _ last => exact stays _ row last
    have fits := (sound.distinct.subperm inside).length_le
    omega

omit [DecidableEq α] in
/-- A query that has ended has reached everything. -/
theorem Sound.mem_iff (sound : state.Sound successors rows) (ended : state.working = []) {row : α} :
    row ∈ state.result ↔ ∃ first ∈ rows,
      Relation.ReflTransGen (fun before after => after ∈ successors before) first row := by
  refine ⟨sound.reached row, ?_⟩
  rintro ⟨first, among, path⟩
  induction path with
  | refl => exact sound.begun first among
  | tail _ next ih =>
    rcases sound.closed _ ih with inside | closed
    · rw [ended] at inside
      exact absurd inside List.not_mem_nil
    · exact closed _ next

end Recursion

end Foundation
end Scrum4Me
