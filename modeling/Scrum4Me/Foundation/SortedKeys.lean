import Mathlib.Data.List.Perm.Basic
import Mathlib.Data.List.Sort

/-!
# Entries sorted by key

Entries with distinct keys are a finite map. Sorted by key they are one list for each
map.
-/

namespace Scrum4Me
namespace Foundation

variable [LinearOrder κ]

/-- Every key is greater than the one before. -/
def Ascending (entries : List (κ × β)) : Prop :=
  entries.Pairwise fun first second => first.1 < second.1

def sortByKey (entries : List (κ × β)) : List (κ × β) :=
  entries.insertionSort fun first second => first.1 ≤ second.1

variable {entries others : List (κ × β)}

theorem sortByKey_perm (entries : List (κ × β)) : (sortByKey entries).Perm entries :=
  List.perm_insertionSort _ entries

theorem mem_sortByKey {entry : κ × β} : entry ∈ sortByKey entries ↔ entry ∈ entries :=
  (sortByKey_perm entries).mem_iff

/-- A sort by key does not see what stands under the keys. -/
theorem sortByKey_map (content : κ × β → γ) (entries : List (κ × β)) :
    sortByKey (entries.map fun entry => (entry.1, content entry)) =
      (sortByKey entries).map fun entry => (entry.1, content entry) :=
  (List.map_insertionSort _ _ (fun entry : κ × β => (entry.1, content entry)) entries
    fun _ _ _ _ => Iff.rfl).symm

theorem Ascending.nodup (ascending : Ascending entries) : (entries.map Prod.fst).Nodup := by
  rw [List.nodup_iff_pairwise_ne, List.pairwise_map]
  exact ascending.imp fun before => ne_of_lt before

theorem ascending_sortByKey (distinct : (entries.map Prod.fst).Nodup) :
    Ascending (sortByKey entries) := by
  have total : Std.Total fun first second : κ × β => first.1 ≤ second.1 :=
    ⟨fun first second => le_total _ _⟩
  have transitive : IsTrans (κ × β) fun first second => first.1 ≤ second.1 :=
    ⟨fun _ _ _ => le_trans⟩
  have sorted : (sortByKey entries).Pairwise fun first second => first.1 ≤ second.1 :=
    List.pairwise_insertionSort _ entries
  have apart : (sortByKey entries).Pairwise fun first second => first.1 ≠ second.1 := by
    have keys := ((sortByKey_perm entries).map Prod.fst).nodup_iff.mpr distinct
    rw [List.nodup_iff_pairwise_ne, List.pairwise_map] at keys
    exact keys
  exact (sorted.and apart).imp fun both => lt_of_le_of_ne both.1 both.2

/-- Ascending lists of the same entries are equal. -/
theorem Ascending.eq_of_perm
    (first : Ascending entries) (second : Ascending others) (same : entries.Perm others) :
    entries = others :=
  same.eq_of_pairwise (fun _ _ _ _ before after => absurd before (lt_asymm after)) first second

theorem Ascending.sortByKey_eq (ascending : Ascending entries) : sortByKey entries = entries :=
  (ascending_sortByKey ascending.nodup).eq_of_perm ascending (sortByKey_perm entries)

/-! ## What is found under a key -/

variable [BEq κ] [LawfulBEq κ]

omit [LinearOrder κ] in
theorem lookup_iff_mem (distinct : (entries.map Prod.fst).Nodup) {key : κ} {value : β} :
    entries.lookup key = some value ↔ (key, value) ∈ entries := by
  induction entries with
  | nil => simp
  | cons entry rest ih =>
    obtain ⟨fresh, later⟩ := List.nodup_cons.mp distinct
    rw [List.lookup_cons, List.mem_cons, Prod.ext_iff]
    by_cases same : key = entry.1
    · subst same
      have absent : (entry.1, value) ∉ rest := fun member =>
        fresh (List.mem_map.mpr ⟨_, member, rfl⟩)
      simp [absent, eq_comm]
    · simp [beq_false_of_ne same, same, ih later]

omit [LinearOrder κ] in
theorem lookup_of_perm
    (same : entries.Perm others) (distinct : (entries.map Prod.fst).Nodup) (key : κ) :
    entries.lookup key = others.lookup key := by
  refine Option.ext fun value => ?_
  rw [lookup_iff_mem distinct, same.mem_iff,
    lookup_iff_mem ((same.map Prod.fst).nodup_iff.mp distinct)]

omit [LinearOrder κ] in
/-- Entries under which the same is found are the same up to their order. -/
theorem perm_of_lookup
    (distinct : (entries.map Prod.fst).Nodup) (distinct' : (others.map Prod.fst).Nodup)
    (same : ∀ key, entries.lookup key = others.lookup key) :
    entries.Perm others := by
  refine (List.perm_ext_iff_of_nodup distinct.of_map distinct'.of_map).mpr fun entry => ?_
  rw [← lookup_iff_mem distinct, ← lookup_iff_mem distinct', same]

/-- Sorted by key they are equal. -/
theorem sortByKey_eq_of_lookup
    (distinct : (entries.map Prod.fst).Nodup) (distinct' : (others.map Prod.fst).Nodup)
    (same : ∀ key, entries.lookup key = others.lookup key) :
    sortByKey entries = sortByKey others :=
  (ascending_sortByKey distinct).eq_of_perm (ascending_sortByKey distinct')
    ((sortByKey_perm entries).trans ((perm_of_lookup distinct distinct' same).trans
      (sortByKey_perm others).symm))

end Foundation
end Scrum4Me
