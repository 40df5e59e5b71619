import Scrum4Me.Verify.DiffPaths

/-!
# Doing more of a plan

A diff that changes one more file of its plan stays aligned, unless the plan has more
paths than the diff has files in it and the diff has just not too many files yet.
-/

namespace Scrum4Me
namespace Verify

open Foundation

variable {plan : Option Text} {diff later path : Text} {planPaths diffPaths : List Text}

/-- Every path of the plan is in the diff. -/
def Complete (planPaths diffPaths : List Text) : Prop :=
  ∀ planPath ∈ planPaths, pathMatches planPath diffPaths = true

/-! ## Results -/

theorem covered_iff :
    (planPaths.filter (pathMatches · diffPaths)).length < planPaths.length ↔
      ¬ Complete planPaths diffPaths := by
  have whole := List.length_filter_eq_length_iff (p := (pathMatches · diffPaths)) (l := planPaths)
  have le := List.length_filter_le (pathMatches · diffPaths) planPaths
  unfold Complete
  rw [← whole]
  omega

theorem classifyPaths_aligned :
    (classifyPaths planPaths diffPaths).result = .aligned ↔
      Complete planPaths diffPaths ∧ diffPaths.length < 3 * scopeSize planPaths diffPaths := by
  unfold classifyPaths
  dsimp only
  by_cases complete : Complete planPaths diffPaths
  · rw [if_neg fun short => covered_iff.mp short complete]
    by_cases large : 3 * scopeSize planPaths diffPaths ≤ diffPaths.length
    · simp [complete, large]
    · simp [complete, large, Nat.lt_of_not_le large]
  · rw [if_pos (covered_iff.mpr complete)]
    simp [complete]

theorem classifyPaths_divergent :
    (classifyPaths planPaths diffPaths).result = .divergent ↔
      Complete planPaths diffPaths ∧ 3 * scopeSize planPaths diffPaths ≤ diffPaths.length := by
  unfold classifyPaths
  dsimp only
  by_cases complete : Complete planPaths diffPaths
  · rw [if_neg fun short => covered_iff.mp short complete]
    by_cases large : 3 * scopeSize planPaths diffPaths ≤ diffPaths.length
    · simp [complete, large]
    · simp [complete, large]
  · rw [if_pos (covered_iff.mpr complete)]
    simp [complete]

theorem classifyPaths_perm {others : List Text} (same : diffPaths.Perm others) :
    (classifyPaths planPaths diffPaths).result = (classifyPaths planPaths others).result := by
  have complete : Complete planPaths diffPaths ↔ Complete planPaths others := by
    unfold Complete
    simp only [pathMatches_iff, same.mem_iff]
  have scope : scopeSize planPaths diffPaths = scopeSize planPaths others := by
    unfold scopeSize inPlan
    rw [(same.filter _).length_eq]
  unfold classifyPaths
  dsimp only
  by_cases whole : Complete planPaths diffPaths
  · rw [if_neg fun short => covered_iff.mp short whole,
      if_neg fun short => covered_iff.mp short (complete.mp whole), scope, same.length_eq]
    split <;> rfl
  · rw [if_pos (covered_iff.mpr whole),
      if_pos (covered_iff.mpr fun later => whole (complete.mpr later))]

/-- With paths in the plan, the result is about paths as soon as there is a change. -/
theorem classify_eq (named : extractPlanPaths (plan.getD []) ≠ []) :
    (classifyDiffAgainstPlan diff plan).result =
      if extractDiffPaths diff = [] ∨ meaningfulChange diff = false then .empty
      else (classifyPaths (extractPlanPaths (plan.getD [])) (extractDiffPaths diff)).result := by
  have content : Text.trim (plan.getD []) ≠ [] := fun blank =>
    named (extractPlanPaths_of_blank blank)
  unfold classifyDiffAgainstPlan
  dsimp only
  rw [if_neg content, if_neg named]
  by_cases none : extractDiffPaths diff = []
  · simp [none]
  · cases meaningfulChange diff <;> simp [none]

theorem aligned_iff (named : extractPlanPaths (plan.getD []) ≠ []) :
    (classifyDiffAgainstPlan diff plan).result = .aligned ↔
      (extractDiffPaths diff ≠ [] ∧ meaningfulChange diff = true) ∧
        Complete (extractPlanPaths (plan.getD [])) (extractDiffPaths diff) ∧
          (extractDiffPaths diff).length <
            3 * scopeSize (extractPlanPaths (plan.getD [])) (extractDiffPaths diff) := by
  rw [classify_eq named, ← classifyPaths_aligned]
  split
  · rename_i nothing
    refine ⟨fun same => (by cases same), fun both => ?_⟩
    rcases nothing with none | blank
    · exact absurd none both.1.1
    · exact absurd (both.1.2.symm.trans blank) (by decide)
  · rename_i something
    rw [not_or, Bool.not_eq_false] at something
    exact ⟨fun aligned => ⟨something, aligned⟩, And.right⟩

/-! ## Files that are added -/

/-- The later diff is the diff with a change of one more file. -/
structure AddsFile (diff later path : Text) : Prop where
  kept : ∀ line ∈ lines diff, line ∈ lines later
  fresh : path ∉ extractDiffPaths diff
  paths : ∀ other, other ∈ extractDiffPaths later ↔ other = path ∨ other ∈ extractDiffPaths diff

namespace AddsFile

/-- Lines about one file that are put somewhere between the lines of a diff. -/
theorem of_lines {before section' after : List Text} (whole : lines diff = before ++ after)
    (added : lines later = before ++ (section' ++ after)) (fresh : path ∉ extractDiffPaths diff)
    (about : ∀ other, other ∈ section'.flatMap linePaths ↔ other = path) :
    AddsFile diff later path := by
  refine ⟨fun line member => ?_, fresh, fun other => ?_⟩
  · rw [whole] at member
    rw [added]
    rcases List.mem_append.mp member with front | back
    · exact List.mem_append_left _ front
    · exact List.mem_append_right _ (List.mem_append_right _ back)
  · rw [extractDiffPaths, extractDiffPaths, List.mem_eraseDups, List.mem_eraseDups, whole, added,
      List.flatMap_append, List.flatMap_append, List.flatMap_append, List.mem_append,
      List.mem_append, List.mem_append, about]
    tauto

theorem perm (adds : AddsFile diff later path) :
    (extractDiffPaths later).Perm (path :: extractDiffPaths diff) := by
  refine (List.perm_ext_iff_of_nodup (nodup_extractDiffPaths later) ?_).mpr fun other => ?_
  · exact List.nodup_cons.mpr ⟨adds.fresh, nodup_extractDiffPaths diff⟩
  · rw [adds.paths, List.mem_cons]

theorem length (adds : AddsFile diff later path) :
    (extractDiffPaths later).length = (extractDiffPaths diff).length + 1 := by
  rw [adds.perm.length_eq, List.length_cons]

theorem inPlan_length (adds : AddsFile diff later path) :
    (inPlan planPaths (extractDiffPaths later)).length =
      (inPlan planPaths [path]).length + (inPlan planPaths (extractDiffPaths diff)).length := by
  unfold inPlan
  rw [(adds.perm.filter _).length_eq, ← List.length_append, ← List.filter_append]
  rfl

theorem meaningful (adds : AddsFile diff later path) (changes : meaningfulChange diff = true) :
    meaningfulChange later = true := by
  obtain ⟨line, member, change⟩ := List.any_eq_true.mp changes
  exact List.any_eq_true.mpr ⟨line, adds.kept line member, change⟩

theorem complete (adds : AddsFile diff later path)
    (complete : Complete planPaths (extractDiffPaths diff)) :
    Complete planPaths (extractDiffPaths later) := by
  intro planPath member
  obtain ⟨diffPath, inside, matched⟩ := pathMatches_iff.mp (complete planPath member)
  exact pathMatches_iff.mpr ⟨diffPath, (adds.paths diffPath).mpr (.inr inside), matched⟩

/-- What the plan does not cover completes none of its paths. -/
theorem complete_of_uncovered (adds : AddsFile diff later path) (outside : ¬ Covered planPaths path)
    (complete : Complete planPaths (extractDiffPaths later)) :
    Complete planPaths (extractDiffPaths diff) := by
  intro planPath member
  obtain ⟨diffPath, inside, matched⟩ := pathMatches_iff.mp (complete planPath member)
  rcases (adds.paths diffPath).mp inside with rfl | inside
  · exact absurd ⟨planPath, member, pathMatches_iff.mpr ⟨_, List.mem_cons_self, matched⟩⟩ outside
  · exact pathMatches_iff.mpr ⟨diffPath, inside, matched⟩

end AddsFile

theorem inPlan_covered (covered : Covered planPaths path) :
    (inPlan planPaths [path]).length = 1 := by
  obtain ⟨planPath, member, matched⟩ := covered
  have inside : (planPaths.any fun planPath => pathMatches planPath [path]) = true :=
    List.any_eq_true.mpr ⟨planPath, member, matched⟩
  simp [inPlan, inside]

/-- Fewer files of the diff are in the plan than the plan has paths, and one more file
makes it three times as many as these. -/
def JustFits (planPaths diffPaths : List Text) : Prop :=
  (inPlan planPaths diffPaths).length < planPaths.length ∧
    diffPaths.length + 1 = 3 * planPaths.length

/-- One more file of the plan leaves a diff aligned unless it just fits; one that is not
in the plan completes nothing by leaving; and only the set of paths matters and whether
there is a change. -/
theorem more_of_plan_iff (named : extractPlanPaths (plan.getD []) ≠ []) :
    (∀ diff later path, AddsFile diff later path →
      Covered (extractPlanPaths (plan.getD [])) path →
        (classifyDiffAgainstPlan diff plan).result = .aligned →
          ((classifyDiffAgainstPlan later plan).result = .aligned ↔
            ¬ JustFits (extractPlanPaths (plan.getD [])) (extractDiffPaths diff))) ∧
    (∀ diff later path, AddsFile diff later path →
      ¬ Covered (extractPlanPaths (plan.getD [])) path →
        (classifyDiffAgainstPlan later plan).result = .divergent →
          meaningfulChange diff = true → (classifyDiffAgainstPlan diff plan).result ≠ .partially ∧
              (classifyDiffAgainstPlan diff plan).result ≠ .empty) ∧
    ∀ diff other,
      (∀ path, path ∈ extractDiffPaths diff ↔ path ∈ extractDiffPaths other) →
        meaningfulChange diff = meaningfulChange other →
          (classifyDiffAgainstPlan diff plan).result =
            (classifyDiffAgainstPlan other plan).result := by
  refine ⟨fun diff later path adds covered aligned => ?_,
    fun diff later path adds outside divergent changes => ?_, fun diff other same changes => ?_⟩
  · obtain ⟨⟨some, changes⟩, complete, fits⟩ := (aligned_iff named).mp aligned
    rw [aligned_iff named]
    have length := adds.length
    have inside : (inPlan (extractPlanPaths (plan.getD [])) (extractDiffPaths later)).length =
        _ := adds.inPlan_length
    rw [inPlan_covered covered] at inside
    unfold scopeSize at fits ⊢
    unfold JustFits
    constructor
    · rintro ⟨-, -, fitsLater⟩
      omega
    · intro loose
      refine ⟨⟨?_, adds.meaningful changes⟩, adds.complete complete, ?_⟩
      · exact List.ne_nil_of_length_eq_add_one length
      · omega
  · rw [classify_eq named] at divergent
    split at divergent
    · cases divergent
    · obtain ⟨complete, -⟩ := classifyPaths_divergent.mp divergent
      have before := adds.complete_of_uncovered outside complete
      have some : extractDiffPaths diff ≠ [] := by
        obtain ⟨planPath, rest, paths⟩ := List.exists_cons_of_ne_nil named
        obtain ⟨diffPath, inside, -⟩ :=
          pathMatches_iff.mp (before planPath (paths ▸ List.mem_cons_self))
        exact List.ne_nil_of_mem inside
      rw [classify_eq named, if_neg (by simp [some, changes])]
      refine ⟨fun short => ?_, classifyPaths_not_empty _ _⟩
      unfold classifyPaths at short
      dsimp only at short
      rw [if_neg fun short => covered_iff.mp short before] at short
      split at short <;> cases short
  · have perm : (extractDiffPaths diff).Perm (extractDiffPaths other) :=
      (List.perm_ext_iff_of_nodup (nodup_extractDiffPaths diff)
        (nodup_extractDiffPaths other)).mpr same
    have none : extractDiffPaths diff = [] ↔ extractDiffPaths other = [] := by
      rw [← List.length_eq_zero_iff, perm.length_eq, List.length_eq_zero_iff]
    rw [classify_eq named, classify_eq named, changes, classifyPaths_perm perm]
    simp only [none]

/-! ## Two names for one file -/

/-- The lines of a diff about one file. -/
def fileLines (path : String) : List Text :=
  [Text.units "--- a/" ++ Text.units path, Text.units "+++ b/" ++ Text.units path,
    Text.units "+x"]

def diffOf (paths : List String) : Text := joined lineFeed (paths.flatMap fileLines)

/-- A plan that names a file with its directory and without. -/
def twiceNamed : Text := Text.units "`src/a.ts`, `a.ts`"

def creeping : List String := ["src/a.ts", "1.md", "2.md", "3.md", "4.md"]

theorem addsFile_diffOf {paths : List String} {name : String} (some : paths ≠ [])
    (whole : ∀ line ∈ (paths ++ [name]).flatMap fileLines, lineFeed ∉ line)
    (fresh : Text.units name ∉ extractDiffPaths (diffOf paths))
    (about : (fileLines name).flatMap linePaths = [Text.units name, Text.units name]) :
    AddsFile (diffOf paths) (diffOf (paths ++ [name])) (Text.units name) := by
  have filled : ∀ others : List String, others ≠ [] → others.flatMap fileLines ≠ [] := by
    intro others filled none
    obtain ⟨first, rest, rfl⟩ := List.exists_cons_of_ne_nil filled
    rw [List.flatMap_cons] at none
    exact absurd (List.append_eq_nil_iff.mp none).1 (List.cons_ne_nil _ _)
  refine @AddsFile.of_lines _ _ _ (paths.flatMap fileLines) (fileLines name) [] ?_ ?_ fresh ?_
  · rw [List.append_nil]
    refine lines_joined (filled paths some) fun line member => whole line ?_
    rw [List.flatMap_append]
    exact List.mem_append_left _ member
  · rw [List.append_nil, diffOf, lines_joined (filled _ (by simp)) whole, List.flatMap_append]
    simp
  · intro other
    rw [about]
    simp

theorem more_of_plan_diverges :
    AddsFile (diffOf creeping) (diffOf (creeping ++ ["lib/a.ts"])) (Text.units "lib/a.ts") ∧
      Covered (extractPlanPaths twiceNamed) (Text.units "lib/a.ts") ∧
        (classifyDiffAgainstPlan (diffOf creeping) (some twiceNamed)).result = .aligned ∧
          (classifyDiffAgainstPlan (diffOf (creeping ++ ["lib/a.ts"]))
            (some twiceNamed)).result = .divergent := by
  refine ⟨addsFile_diffOf (by decide) (by decide +kernel) (by decide +kernel)
    (by decide +kernel), ⟨Text.units "a.ts", by decide +kernel, by decide +kernel⟩,
    by decide +kernel, by decide +kernel⟩

theorem more_of_plan_iff_small :
    (classifyDiffAgainstPlan (diffOf ["src/a.ts", "lib/a.ts"]) (some twiceNamed)).result =
      .aligned := by
  have named : extractPlanPaths ((some twiceNamed).getD []) ≠ [] := by decide +kernel
  refine ((more_of_plan_iff named).1 (diffOf ["src/a.ts"]) _ (Text.units "lib/a.ts") ?_
    ⟨Text.units "a.ts", by decide +kernel, by decide +kernel⟩ (by decide +kernel)).mpr ?_
  · exact addsFile_diffOf (by decide) (by decide +kernel) (by decide +kernel) (by decide +kernel)
  · unfold JustFits
    decide +kernel

end Verify
end Scrum4Me
