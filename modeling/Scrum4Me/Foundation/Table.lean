import Mathlib.Data.List.Basic
import Mathlib.Data.List.Nodup

/-!
# Tables as lists of rows

A table is a list of rows in insertion order. `updateWhere` is SQL's
`UPDATE … SET … WHERE`: every matching row is rewritten in place. The lemmas say
how it meets projection of columns, appended rows and rows that do not match.
-/

namespace Scrum4Me
namespace Foundation

variable {table : List α} {matching : α → Bool} {change : α → α} {row : α} {related : α → α → Prop}

/-- The rows after an insert. -/
theorem mem_inserted {new : α} : row ∈ table ++ [new] ↔ row ∈ table ∨ row = new := by
  rw [List.mem_append, List.mem_singleton]

/-- Rewrite every row that matches. -/
def updateWhere (matching : α → Bool) (change : α → α) (table : List α) :
    List α :=
  table.map fun row => if matching row then change row else row

@[simp] theorem updateWhere_nil (matching : α → Bool) (change : α → α) :
    updateWhere matching change [] = [] := rfl

@[simp] theorem updateWhere_cons (matching : α → Bool) (change : α → α) (row : α) (table : List α) :
    updateWhere matching change (row :: table) = (if matching row then change row else row) ::
        updateWhere matching change table := rfl

@[simp] theorem length_updateWhere (matching : α → Bool) (change : α → α) (table : List α) :
    (updateWhere matching change table).length = table.length := by
  simp [updateWhere]

@[simp] theorem updateWhere_append (matching : α → Bool) (change : α → α) (first second : List α) :
    updateWhere matching change (first ++ second) = updateWhere matching change first ++
        updateWhere matching change second := by
  simp [updateWhere]

/-- An update that matches nothing changes nothing. -/
theorem updateWhere_eq_self (untouched : ∀ row ∈ table, matching row = true → change row = row) :
    updateWhere matching change table = table := by
  induction table with
  | nil => rfl
  | cons row rest ih =>
    have tail := ih fun other member => untouched other (List.mem_cons_of_mem row member)
    have head := untouched row List.mem_cons_self
    rw [updateWhere_cons, tail]
    split
    · rename_i found
      rw [head found]
    · rfl

/-- Projecting columns commutes with an update that the projection can see. -/
theorem map_updateWhere
    {project : α → β} {matching : α → Bool} {change : α → α} {matching' : β → Bool}
    {change' : β → β} (sameMatch : ∀ row, matching row = matching' (project row))
    (sameChange : ∀ row, project (change row) = change' (project row)) (table : List α) :
    (updateWhere matching change table).map project =
      updateWhere matching' change' (table.map project) := by
  induction table with
  | nil => rfl
  | cons row rest ih =>
    simp only [updateWhere_cons, List.map_cons, ih]
    rw [← sameMatch, ← sameChange]
    split <;> rfl

/-- A column that the update does not write keeps its values. -/
theorem map_updateWhere_of_unchanged {project : α → β} {matching : α → Bool} {change : α → α}
    (unchanged : ∀ row, project (change row) = project row) (table : List α) :
    (updateWhere matching change table).map project = table.map project := by
  induction table with
  | nil => rfl
  | cons row rest ih =>
    simp only [updateWhere_cons, List.map_cons, ih]
    split
    · rw [unchanged]
    · rfl

theorem mem_updateWhere :
    row ∈ updateWhere matching change table ↔
      (∃ old ∈ table, matching old = true ∧ change old = row) ∨
        row ∈ table ∧ matching row = false := by
  unfold updateWhere
  rw [List.mem_map]
  constructor
  · rintro ⟨old, member, rfl⟩
    by_cases found : matching old = true
    · rw [if_pos found]
      exact .inl ⟨old, member, found, rfl⟩
    · rw [if_neg found]
      exact .inr ⟨member, by simpa using found⟩
  · rintro (⟨old, member, found, rfl⟩ | ⟨member, missed⟩)
    · exact ⟨old, member, if_pos found⟩
    · exact ⟨row, member, by simp [missed]⟩

/-- A row that is neither matched nor the result of a change. -/
theorem mem_updateWhere_apart (missed : matching row = false)
    (apart : ∀ old ∈ table, matching old = true → change old ≠ row) :
    row ∈ updateWhere matching change table ↔ row ∈ table := by
  rw [mem_updateWhere]
  constructor
  · rintro (⟨old, member, matched, changed⟩ | ⟨member, -⟩)
    · exact absurd changed (apart old member matched)
    · exact member
  · exact fun member => .inr ⟨member, missed⟩

/-- A filter by columns that the update does not write commutes with it. -/
theorem filter_updateWhere {matching search : α → Bool} {change : α → α}
    (sameSearch : ∀ row, search (change row) = search row) (table : List α) :
    (updateWhere matching change table).filter search =
      updateWhere matching change (table.filter search) := by
  induction table with
  | nil => rfl
  | cons row rest ih =>
    have same : search (if matching row then change row else row) = search row := by
      split
      · exact sameSearch row
      · rfl
    rw [updateWhere_cons, List.filter_cons, List.filter_cons, same, ih]
    split <;> rfl

/-- Every row lives on, as itself or as what the update made of it. -/
theorem exists_updateWhere
    {matching : α → Bool} {change : α → α} {table : List α} {related : α → α → Prop}
    (reflexive : ∀ row, related row row) (changed : ∀ row, related row (change row))
    (row : α) (member : row ∈ table) :
    ∃ row' ∈ updateWhere matching change table, related row row' := by
  by_cases found : matching row = true
  · exact ⟨change row, mem_updateWhere.mpr (.inl ⟨row, member, found, rfl⟩), changed row⟩
  · exact ⟨row, mem_updateWhere.mpr (.inr ⟨member, by simpa using found⟩), reflexive row⟩

/-- Every row after the update was there before, as itself or as what the update
changed. -/
theorem exists_of_updateWhere
    {matching : α → Bool} {change : α → α} {table : List α} {related : α → α → Prop}
    (reflexive : ∀ row, related row row) (changed : ∀ row, related row (change row))
    (row : α) (member : row ∈ updateWhere matching change table) :
    ∃ old ∈ table, related old row := by
  rcases mem_updateWhere.mp member with ⟨old, inside, -, rfl⟩ | ⟨inside, -⟩
  · exact ⟨old, inside, changed old⟩
  · exact ⟨row, inside, reflexive row⟩

/-- A lookup by columns that the update does not write finds the same. -/
theorem find?_updateWhere {search : α → Bool} {column : α → β}
    (sameSearch : ∀ row, search (change row) = search row)
    (sameColumn : ∀ row, column (change row) = column row) (table : List α) :
    ((updateWhere matching change table).find? search).map column =
      (table.find? search).map column := by
  induction table with
  | nil => rfl
  | cons row rest ih =>
    rw [updateWhere_cons, List.find?_cons, List.find?_cons]
    by_cases found : matching row = true
    · rw [if_pos found, sameSearch]
      cases search row with
      | true => simp [sameColumn]
      | false => exact ih
    · rw [if_neg found]
      cases search row with
      | true => rfl
      | false => exact ih

/-- An optional column contributes at most one entry for each row. -/
theorem filterMap_cons_toList (column : α → Option β) (row : α) (rest : List α) :
    (row :: rest).filterMap column = (column row).toList ++ rest.filterMap column := by
  cases entry : column row <;> simp [entry]

/-- A table of distinct rows that are all the same has one row at most. -/
theorem length_le_one (distinct : table.Nodup)
    (same : ∀ first ∈ table, ∀ second ∈ table, first = second) :
    table.length ≤ 1 := by
  match table with
  | [] => exact Nat.zero_le 1
  | [_] => exact Nat.le_refl 1
  | first :: second :: rest =>
    have equal : first = second := same first List.mem_cons_self second
      (List.mem_cons_of_mem _ List.mem_cons_self)
    rw [equal] at distinct
    exact absurd List.mem_cons_self (List.nodup_cons.mp distinct).1

/-- A row is the one that is found if no other matches. -/
theorem find?_eq_some_of_unique {search : α → Bool} (member : row ∈ table)
    (found : search row = true) (unique : ∀ other ∈ table, search other = true → other = row) :
    table.find? search = some row := by
  cases first : table.find? search with
  | none => exact absurd found (List.find?_eq_none.mp first row member)
  | some other => rw [unique other (List.mem_of_find?_eq_some first) (List.find?_some first)]

/-- Two rows of an ordered table are one, or one is before the other. -/
theorem pairwise_cases {first second : α}
    (pairwise : table.Pairwise related) (firstMember : first ∈ table)
    (secondMember : second ∈ table) :
    first = second ∨ related first second ∨ related second first := by
  induction pairwise with
  | nil => cases firstMember
  | cons head _ ih =>
    rcases List.mem_cons.mp firstMember with rfl | firstLater
    · rcases List.mem_cons.mp secondMember with rfl | secondLater
      · exact .inl rfl
      · exact .inr (.inl (head second secondLater))
    · rcases List.mem_cons.mp secondMember with rfl | secondLater
      · exact .inr (.inr (head first firstLater))
      · exact ih firstLater secondLater

/-- The last row of an ordered table is after every other. -/
theorem pairwise_getLast? {last : α}
    (pairwise : table.Pairwise related) (found : table.getLast? = some last)
    (member : row ∈ table) :
    row = last ∨ related row last := by
  have split : table.dropLast ++ [last] = table := List.dropLast_append_getLast? last found
  rw [← split] at pairwise member
  rcases List.mem_append.mp member with before | here
  · exact .inr ((List.pairwise_append.mp pairwise).2.2 row before last
      (List.mem_singleton_self last))
  · exact .inl (List.mem_singleton.mp here)

/-- Where no two rows both match, one matches at most. -/
theorem countP_le_one (apart : table.Pairwise fun first second =>
      ¬ (matching first = true ∧ matching second = true)) :
    table.countP matching ≤ 1 := by
  induction apart with
  | nil => exact Nat.zero_le 1
  | @cons row rest others _ ih =>
    by_cases found : matching row = true
    · have later : rest.countP matching = 0 :=
        List.countP_eq_zero.mpr fun other member matched =>
          others other member ⟨found, matched⟩
      have counted : (row :: rest).countP matching = 0 + 1 := by
        rw [List.countP_cons_of_pos found, later]
      exact Nat.le_of_eq counted
    · rw [List.countP_cons_of_neg found]
      exact ih

/-- With distinct keys, a query by key finds exactly the row that has it. -/
theorem filter_key [DecidableEq κ] (key : α → κ) (distinct : (table.map key).Nodup)
    (member : row ∈ table) :
    table.filter (fun other => key other = key row) = [row] := by
  induction table with
  | nil => cases member
  | cons head rest ih =>
    rw [List.map_cons, List.nodup_cons] at distinct
    rcases List.mem_cons.mp member with rfl | inside
    · have missed : rest.filter (fun other => key other = key row) = [] := by
        rw [List.filter_eq_nil_iff]
        intro other found same
        rw [← of_decide_eq_true same] at distinct
        exact distinct.1 (List.mem_map_of_mem found)
      rw [List.filter_cons_of_pos (by simp), missed]
    · have different : key head ≠ key row := by
        intro same
        rw [same] at distinct
        exact distinct.1 (List.mem_map_of_mem inside)
      rw [List.filter_cons_of_neg (by simpa using different)]
      exact ih distinct.2 inside

/-- A key that is unique over all groups belongs to one of them. -/
theorem group_of_key {keys : α → List κ} {groups : List α} {first second : α} {key : κ}
    (distinct : (groups.flatMap keys).Nodup) (firstMember : first ∈ groups)
    (secondMember : second ∈ groups) (inFirst : key ∈ keys first) (inSecond : key ∈ keys second) :
    first = second := by
  induction groups with
  | nil => cases firstMember
  | cons group rest ih =>
    rw [List.flatMap_cons, List.nodup_append] at distinct
    obtain ⟨-, others, apart⟩ := distinct
    rcases List.mem_cons.mp firstMember with rfl | firstMember
    · rcases List.mem_cons.mp secondMember with rfl | secondMember
      · rfl
      · exact (apart key inFirst key
          (List.mem_flatMap.mpr ⟨second, secondMember, inSecond⟩) rfl).elim
    · rcases List.mem_cons.mp secondMember with rfl | inside
      · exact (apart key inSecond key
          (List.mem_flatMap.mpr ⟨first, ‹first ∈ rest›, inFirst⟩) rfl).elim
      · exact ih others ‹first ∈ rest› inside

/-- With distinct keys, an update by key rewrites exactly the row that has it. -/
theorem updateWhere_key [DecidableEq κ] (key : α → κ) {before later : List α}
    (distinct : ((before ++ row :: later).map key).Nodup) (matched : matching row = true)
    (byKey : ∀ other, matching other = true → key other = key row) :
    updateWhere matching change (before ++ row :: later) = before ++ change row :: later := by
  rw [List.map_append, List.map_cons] at distinct
  have notBefore : key row ∉ before.map key := by
    intro member
    exact (List.nodup_append.mp distinct).2.2 _ member _ List.mem_cons_self rfl
  have notLater : key row ∉ later.map key :=
    (List.nodup_cons.mp (List.nodup_append.mp distinct).2.1).1
  have missed : ∀ table : List α, key row ∉ table.map key →
      updateWhere matching change table = table := by
    intro table absent
    apply updateWhere_eq_self
    intro other member found
    exact absurd (List.mem_map.mpr ⟨other, member, byKey other found⟩) absent
  rw [updateWhere_append, updateWhere_cons, missed before notBefore,
    missed later notLater, if_pos matched]

/-- Two updates of the same rows are one. -/
theorem updateWhere_updateWhere {first second : α → α}
    (kept : ∀ row, matching (first row) = matching row) (table : List α) :
    updateWhere matching second (updateWhere matching first table) =
      updateWhere matching (fun row => second (first row)) table := by
  induction table with
  | nil => rfl
  | cons row rest ih =>
    simp only [updateWhere_cons, ih]
    by_cases found : matching row = true
    · rw [if_pos found, if_pos found, kept row, if_pos found]
    · rw [if_neg found, if_neg found, if_neg found]

/-- A key that the update does not write stays distinct. -/
theorem nodup_updateWhere {key : α → κ}
    (kept : ∀ row, key (change row) = key row) (distinct : (table.map key).Nodup) :
    ((updateWhere matching change table).map key).Nodup := by
  rw [map_updateWhere_of_unchanged kept]
  exact distinct

/-- A lookup does not see an update of rows that it does not look for. -/
theorem find?_updateWhere_apart {search : α → Bool}
    (apart : ∀ row, matching row = true → search row = false ∧ search (change row) = false) :
    (updateWhere matching change table).find? search = table.find? search := by
  induction table with
  | nil => rfl
  | cons row rest ih =>
    rw [updateWhere_cons, List.find?_cons, List.find?_cons, ih]
    by_cases found : matching row = true
    · rw [if_pos found, (apart row found).1, (apart row found).2]
    · rw [if_neg found]

end Foundation
end Scrum4Me
