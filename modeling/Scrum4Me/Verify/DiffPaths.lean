import Scrum4Me.Verify.Classify
import Mathlib.Data.List.Nodup

/-!
# What a result depends on

With paths in the plan, the result is known from the set of changed paths and from
whether a changed line has content.
-/

namespace Scrum4Me
namespace Verify

open Foundation

/-! ## Sets of paths -/

theorem nodup_eraseDups [BEq α] [LawfulBEq α] (elements : List α) : elements.eraseDups.Nodup := by
  have bounded : ∀ (size : Nat) (elements : List α), elements.length ≤ size →
      elements.eraseDups.Nodup := by
    intro size
    induction size with
    | zero =>
      intro elements short
      rw [List.eq_nil_of_length_eq_zero (Nat.le_zero.mp short)]
      exact List.nodup_nil
    | succ size ih =>
      intro elements short
      cases elements with
      | nil => exact List.nodup_nil
      | cons first rest =>
        rw [List.eraseDups_cons, List.nodup_cons, List.mem_eraseDups]
        refine ⟨by simp, ih _ ?_⟩
        exact (List.length_filter_le _ _).trans (Nat.le_of_succ_le_succ short)
  exact bounded _ elements le_rfl

theorem mem_extractDiffPaths {diff path : Text} :
    path ∈ extractDiffPaths diff ↔ ∃ line ∈ lines diff, path ∈ linePaths line := by
  rw [extractDiffPaths, List.mem_eraseDups, List.mem_flatMap]

theorem nodup_extractDiffPaths (diff : Text) : (extractDiffPaths diff).Nodup :=
  nodup_eraseDups _

theorem pathMatches_iff {planPath : Text} {diffPaths : List Text} :
    pathMatches planPath diffPaths = true ↔
      ∃ diffPath ∈ diffPaths, pathMatch planPath diffPath = true :=
  List.any_eq_true

/-- Some path of the plan matches the path. -/
def Covered (planPaths : List Text) (diffPath : Text) : Prop :=
  ∃ planPath ∈ planPaths, pathMatches planPath [diffPath] = true

/-! ## Plans without content -/

variable {unit : Nat} {parts : List Text}

theorem mem_joined {separator : Nat} (member : unit ∈ joined separator parts) :
    unit = separator ∨ ∃ part ∈ parts, unit ∈ part := by
  cases parts with
  | nil => exact absurd member List.not_mem_nil
  | cons first rest =>
    rcases List.mem_append.mp member with inside | later
    · exact .inr ⟨first, List.mem_cons_self, inside⟩
    · obtain ⟨part, partOf, inside⟩ := List.mem_flatMap.mp later
      rcases List.mem_cons.mp inside with same | inside
      · exact .inl same
      · exact .inr ⟨part, List.mem_cons_of_mem _ partOf, inside⟩

theorem joined_eq_intercalate (separator : Nat) (parts : List Text) :
    joined separator parts = [separator].intercalate parts := by
  cases parts with
  | nil => rfl
  | cons first rest =>
    induction rest generalizing first with
    | nil => rw [joined, List.intercalate_singleton, List.flatMap_nil, List.append_nil]
    | cons second rest ih =>
      rw [List.intercalate_cons_cons, ← ih second, joined, joined, List.flatMap_cons]
      simp

theorem joined_lines (text : Text) : joined lineFeed (lines text) = text := by
  rw [joined_eq_intercalate]
  exact List.intercalate_splitOn lineFeed

theorem lines_joined (some : parts ≠ []) (whole : ∀ part ∈ parts, lineFeed ∉ part) :
    lines (joined lineFeed parts) = parts := by
  rw [joined_eq_intercalate]
  exact List.splitOn_intercalate lineFeed whole some

theorem mem_joined_of_mem {separator : Nat} {part : Text}
    (partOf : part ∈ parts) (member : unit ∈ part) :
    unit ∈ joined separator parts := by
  cases parts with
  | nil => exact absurd partOf List.not_mem_nil
  | cons first rest =>
    rcases List.mem_cons.mp partOf with rfl | later
    · exact List.mem_append_left _ member
    · exact List.mem_append_right _
        (List.mem_flatMap.mpr ⟨part, later, List.mem_cons_of_mem _ member⟩)

theorem mem_lines {text line : Text} (lineOf : line ∈ lines text) (member : unit ∈ line) :
    unit ∈ text := by
  rw [← joined_lines text]
  exact mem_joined_of_mem lineOf member

theorem mem_splitOutsideCode
    {isBoundary : Nat → Option Nat → Bool} {current text part : Text} {inCode : Bool}
    (partOf : part ∈ splitOutsideCode isBoundary current inCode text) (member : unit ∈ part) :
    unit ∈ current ∨ unit ∈ text := by
  induction text generalizing current inCode with
  | nil =>
    rw [splitOutsideCode, List.mem_singleton] at partOf
    exact .inl (partOf ▸ member)
  | cons first rest ih =>
    rw [splitOutsideCode] at partOf
    generalize (if first = backtick then !inCode else inCode) = inside at partOf
    split at partOf
    · rcases List.mem_cons.mp partOf with rfl | later
      · exact .inl member
      · rcases ih later with none | found
        · exact absurd none List.not_mem_nil
        · exact .inr (List.mem_cons_of_mem _ found)
    · rcases ih partOf with found | found
      · rcases List.mem_append.mp found with found | found
        · exact .inl found
        · exact .inr (List.mem_singleton.mp found ▸ List.mem_cons_self)
      · exact .inr (List.mem_cons_of_mem _ found)

theorem positiveSegments_sublist (excluding : Bool) (segments : List Text) :
    (positiveSegments excluding segments).Sublist segments := by
  induction segments generalizing excluding with
  | nil => exact .slnil
  | cons segment rest ih =>
    rw [positiveSegments]
    cases negated? segment with
    | none =>
      rw [Option.elim_none]
      split
      · exact (ih excluding).cons_cons segment
      · split
        · exact (ih excluding).cons segment
        · split
          · exact (ih excluding).cons segment
          · exact (ih false).cons_cons segment
    | some after =>
      rw [Option.elim_some]
      split
      · exact (ih true).cons segment
      · exact (ih false).cons_cons segment

/-- Nothing but separators comes into a line. -/
theorem mem_positiveClauses {line : Text} (member : unit ∈ positiveClauses line) :
    unit ∈ line ∨ unit = 59 ∨ unit = 44 := by
  rcases mem_joined member with same | ⟨clause, clauseOf, member⟩
  · exact .inr (.inl same)
  · obtain ⟨source, sourceOf, rfl⟩ := List.mem_map.mp clauseOf
    rcases mem_joined member with same | ⟨segment, segmentOf, member⟩
    · exact .inr (.inr same)
    · have part := (positiveSegments_sublist _ _).mem segmentOf
      rcases mem_splitOutsideCode part member with none | inside
      · exact absurd none List.not_mem_nil
      · rcases mem_splitOutsideCode sourceOf inside with none | inside
        · exact absurd none List.not_mem_nil
        · exact .inl inside

theorem sectionLines_sublist (level : Nat) (lines : List Text) :
    (sectionLines level lines).Sublist lines := by
  induction lines generalizing level with
  | nil => exact .slnil
  | cons line rest ih =>
    rw [sectionLines]
    cases headingLevel filesHeading line with
    | none =>
      rw [Option.elim_none]
      split
      · exact (ih 0).cons line
      · split
        · exact (ih level).cons_cons line
        · exact (ih level).cons line
    | some files => exact (ih files).cons line

/-- Nothing but separators comes into a plan. -/
theorem mem_planScope {plan : Text} (member : unit ∈ planScope plan) :
    unit ∈ plan ∨ unit = 10 ∨ unit = 59 ∨ unit = 44 := by
  rcases mem_joined member with same | ⟨line, lineOf, member⟩
  · exact .inr (.inl same)
  · obtain ⟨source, sourceOf, rfl⟩ := List.mem_map.mp lineOf
    rcases mem_positiveClauses member with inside | other
    · have kept := mem_lines sourceOf inside
      unfold filesSections at kept
      split at kept
      · rcases mem_joined kept with same | ⟨line, lineOf, inside⟩
        · exact .inr (.inl same)
        · exact .inl (mem_lines ((sectionLines_sublist _ _).mem lineOf) inside)
      · exact .inl kept
    · exact .inr (.inr other)

theorem extractPlanPaths_of_blank {plan : Text} (blank : Text.trim plan = []) :
    extractPlanPaths plan = [] := by
  have units : ∀ unit ∈ planScope plan, unit ≠ backtick ∧ unit ≠ 45 ∧ unit ≠ 42 := by
    intro unit member
    rcases mem_planScope member with inside | other
    · have space := Text.space_of_trim blank unit inside
      unfold Text.Space at space
      unfold backtick
      omega
    · unfold backtick
      omega
  have spans : backtickSpan.execAll (planScope plan) = [] := by
    refine Pattern.execAll_eq_nil fun previous rest suffix => ?_
    have other : ([backtick] : Text).isPrefixOf rest = false := by
      cases rest with
      | nil => rfl
      | cons unit rest =>
        have differs := (units unit (suffix.subset List.mem_cons_self)).1
        simp [List.isPrefixOf, differs.symm]
    simp [backtickSpan, Pattern.sequence, Pattern.run, other]
  have bullets : bulletHeading.execAll (planScope plan) = [] := by
    refine Pattern.execAll_eq_nil fun previous rest suffix => ?_
    have other : (rest.head?.any fun unit => unit = 45 ∨ unit = 42) = false := by
      cases rest with
      | nil => rfl
      | cons unit rest => simpa using (units unit (suffix.subset List.mem_cons_self)).2
    simp only [bulletHeading, Pattern.sequence, Pattern.run]
    split
    · simp only [List.flatMap_cons, List.flatMap_nil, List.append_nil, other,
        Bool.false_eq_true, if_false, List.map_nil]
    · rfl
  unfold extractPlanPaths
  dsimp only
  rw [spans, bullets]
  rfl

/-! ## Empty results -/

theorem classifyPaths_not_empty (planPaths diffPaths : List Text) :
    (classifyPaths planPaths diffPaths).result ≠ .empty := by
  unfold classifyPaths
  dsimp only
  split
  · exact fun same => by cases same
  · split <;> exact fun same => by cases same

/-- The plan has no part in whether a diff is empty. -/
theorem classify_empty_iff {diff : Text} {plan : Option Text} :
    (classifyDiffAgainstPlan diff plan).result = .empty ↔
      extractDiffPaths diff = [] ∨ meaningfulChange diff = false := by
  unfold classifyDiffAgainstPlan
  dsimp only
  by_cases none : extractDiffPaths diff = []
  · simp [none]
  · rw [if_neg none]
    cases meaningfulChange diff with
    | false => simp
    | true =>
      rw [if_neg (by simp)]
      split
      · split <;> simp [none]
      · split
        · split <;> simp [none]
        · simp [none, classifyPaths_not_empty]

end Verify
end Scrum4Me
