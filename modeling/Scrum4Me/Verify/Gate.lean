import Scrum4Me.Verify.GitDiffs

/-!
# What the gate sees of a diff

The changed paths are read off header lines, and so is whether anything changed. Contents
that look like headers, names that are printed otherwise and files without hunks are what
it can miss.
-/

namespace Scrum4Me
namespace Verify

open Foundation

variable {names : Names} {changes : List FileChange} {plan : Option Text}

/-! ## Lines of hunks -/

/-- A changed line is printed as a header line. -/
def HunkLine.ReadsAsHeader : HunkLine → Prop
  | .removed content => ∃ path, Header (Text.units "-- a/") content path
  | .added content => ∃ path, Header (Text.units "++ b/") content path
  | _ => False

def Sign (unit : Nat) : Bool := unit = 43 ∨ unit = 45

/-- Two signs and a blank. -/
def Signed (content : Text) : Prop :=
  2 ≤ (content.takeWhile Sign).length ∧ (content.drop 2).head?.any (Text.Space ·) = true

variable {line : Text} {unit : Nat} {held : Text → Prop} {change : FileChange}

theorem header_cons {sign content path : Text} :
    Header (unit :: sign) (unit :: content) path ↔ Header sign content path := by
  unfold Header
  simp

theorem linePaths_text (line : HunkLine) : linePaths line.text = [] ↔ ¬ line.ReadsAsHeader := by
  rw [List.eq_nil_iff_forall_not_mem]
  cases line with
  | removed content =>
    have each : ∀ path, path ∈ linePaths (45 :: content) ↔
        Header (Text.units "-- a/") content path := by
      intro path
      have minus : Text.units "--- a/" = 45 :: Text.units "-- a/" := by decide
      rw [mem_linePaths_minus rfl, minus, header_cons]
    simp only [HunkLine.text, HunkLine.ReadsAsHeader, each, not_exists]
  | added content =>
    have each : ∀ path, path ∈ linePaths (43 :: content) ↔
        Header (Text.units "++ b/") content path := by
      intro path
      have plus : Text.units "+++ b/" = 43 :: Text.units "++ b/" := by decide
      rw [mem_linePaths_plus rfl, plus, header_cons]
    simp only [HunkLine.text, HunkLine.ReadsAsHeader, each, not_exists]
  | _ =>
    rw [linePaths_of_unsigned (by rfl)]
    simp [HunkLine.ReadsAsHeader]

theorem mem_counts_most {accepts : Nat → Bool} {least most count : Nat} {rest : Text} :
    count ∈ Pattern.counts accepts least (some most) rest ↔
      least ≤ count ∧ count ≤ (rest.takeWhile accepts).length ∧ count ≤ most := by
  rw [Pattern.counts, List.mem_reverse, List.mem_filter, List.mem_range, decide_eq_true_eq,
    Option.elim_some]
  omega

theorem headerLine_test :
    headerLine.test line = true ↔
      3 ≤ (line.takeWhile Sign).length ∧ (line.drop 3).head?.any (Text.Space ·) = true := by
  have runs : (Pattern.append (.many Sign 3 (some 3)) (.one (Text.Space ·))).run
      (Place.start line) ≠ [] ↔
        3 ≤ (line.takeWhile Sign).length ∧ (line.drop 3).head?.any (Text.Space ·) = true := by
    constructor
    · intro some'
      obtain ⟨found, matched⟩ := List.exists_mem_of_ne_nil _ some'
      simp only [Pattern.run, List.mem_flatMap, List.mem_map] at matched
      obtain ⟨inner, ⟨count, counted, rfl⟩, last, ends, -⟩ := matched
      obtain ⟨least, available, most⟩ := mem_counts_most.mp counted
      obtain rfl : count = 3 := Nat.le_antisymm most least
      split at ends
      · rename_i space
        exact ⟨available, space⟩
      · exact absurd ends List.not_mem_nil
    · rintro ⟨available, space⟩
      have counted := mem_counts_most.mpr ⟨le_rfl, available, le_rfl⟩
      refine List.ne_nil_of_mem (a := ⟨((Place.start line).advance 3).advance 1, []⟩) ?_
      simp only [Pattern.run, List.mem_flatMap, List.mem_map]
      refine ⟨_, ⟨3, counted, rfl⟩, ⟨((Place.start line).advance 3).advance 1, []⟩, ?_, rfl⟩
      rw [if_pos (by exact space)]
      exact List.mem_cons_self
  rw [← runs, Pattern.test]
  change (((Pattern.append .inputStart
    (.append (.many Sign 3 (some 3)) (.one (Text.Space ·)))).search none line).isSome = true) ↔ _
  rw [Pattern.search_inputStart, Option.isSome_map, List.isSome_head?]

/-- A changed line counts if its content is not blank and does not start with two signs
and a blank. -/
theorem meaningful_signed (content : Text) (sign : Sign unit = true) :
    meaningful (unit :: content) = true ↔ Text.trim content ≠ [] ∧ ¬ Signed content := by
  have test : headerLine.test (unit :: content) = true ↔ Signed content := by
    rw [headerLine_test, List.takeWhile_cons_of_pos sign, List.length_cons, Signed]
    exact and_congr_left' Nat.succ_le_succ_iff
  have starts : changed (unit :: content) = true := sign
  rw [meaningful, starts, Bool.true_and, Bool.and_eq_true, Bool.not_eq_true', ← Bool.not_eq_true,
    test, decide_eq_true_eq, List.length_pos_iff, and_comm]
  rfl

theorem meaningful_unsigned (unsigned : changed line = false) : meaningful line = false := by
  rw [meaningful, unsigned]
  rfl

theorem meaningful_header {start : Text} (sign : Sign unit = true)
    (shape : start = [unit, unit, unit, 32]) (rest : Text) :
    meaningful (start ++ rest) = false := by
  have signed : meaningful (start ++ rest) = true ↔
      Text.trim (unit :: unit :: 32 :: rest) ≠ [] ∧ ¬ Signed (unit :: unit :: 32 :: rest) := by
    rw [shape]
    exact meaningful_signed _ sign
  rw [← Bool.not_eq_true, signed]
  rintro ⟨-, plain⟩
  refine plain ⟨?_, rfl⟩
  rw [List.takeWhile_cons_of_pos sign, List.takeWhile_cons_of_pos sign]
  simp

theorem meaningful_text (line : HunkLine) :
    meaningful line.text = true ↔
      ∃ content ∈ line.changed?.toList, Text.trim content ≠ [] ∧ ¬ Signed content := by
  cases line with
  | removed content =>
    rw [HunkLine.text, meaningful_signed content (by rfl)]
    simp [HunkLine.changed?]
  | added content =>
    rw [HunkLine.text, meaningful_signed content (by rfl)]
    simp [HunkLine.changed?]
  | _ =>
    rw [meaningful_unsigned (by rfl)]
    simp [HunkLine.changed?]

/-! ## Whole diffs -/

/-- The lines of all hunks. -/
def hunkLines (changes : List FileChange) : List HunkLine :=
  changes.flatMap fun change => change.hunks.flatMap Hunk.lines

theorem mem_changedContents {content : Text} :
    content ∈ changedContents changes ↔
      ∃ line ∈ hunkLines changes, content ∈ line.changed?.toList := by
  simp only [changedContents, FileChange.contents, hunkLines, List.mem_flatMap,
    List.mem_filterMap, Option.mem_toList]
  constructor
  · rintro ⟨change, inside, hunk, hunkOf, line, lineOf, changed⟩
    exact ⟨line, ⟨change, inside, hunk, hunkOf, lineOf⟩, changed⟩
  · rintro ⟨line, ⟨change, inside, hunk, hunkOf, lineOf⟩, changed⟩
    exact ⟨change, inside, hunk, hunkOf, line, lineOf, changed⟩

theorem whole_printed (names : Names) {side : String} (plain : lineFeed ∉ Text.units side)
    (name : Text) :
    lineFeed ∉ names.printed side name := by
  unfold Names.printed
  cases quoted : names.quotes name with
  | true =>
    have escaped := names.whole name
    rw [if_pos rfl]
    simp [lineFeed] at plain escaped ⊢
    exact ⟨plain, escaped⟩
  | false =>
    have clean : lineFeed ∉ name := by
      intro inside
      have quotes := names.unusual name ⟨lineFeed, inside, .inl (by decide)⟩
      rw [quoted] at quotes
      cases quotes
    rw [if_neg (by decide)]
    split
    · simp [lineFeed] at plain clean ⊢
      exact ⟨plain, clean⟩
    · simp [lineFeed] at plain clean ⊢
      exact ⟨plain, clean⟩

theorem whole_headers (names : Names) (change : FileChange) :
    ∀ line ∈ change.headers names, lineFeed ∉ line := by
  have minus : lineFeed ∉ Text.units "--- " := by decide
  have plus : lineFeed ∉ Text.units "+++ " := by decide
  unfold FileChange.headers
  simp only [List.forall_mem_cons, List.mem_append, not_or]
  refine ⟨⟨minus, ?_⟩, ⟨plus, ?_⟩, List.forall_mem_nil _⟩
  · cases change.old with
    | none => exact show lineFeed ∉ Text.units "/dev/null" by decide
    | some name => exact whole_printed names (by decide) name
  · cases change.new with
    | none => exact show lineFeed ∉ Text.units "/dev/null" by decide
    | some name => exact whole_printed names (by decide) name

theorem whole_hunk (hunk : Hunk) : ∀ line ∈ hunk.texts, lineFeed ∉ line := by
  unfold Hunk.texts
  refine List.forall_mem_cons.mpr ⟨?_, fun line member => ?_⟩
  · have clean := hunk.whole.1
    simp [lineFeed] at clean ⊢
    exact clean
  · obtain ⟨inner, inside, rfl⟩ := List.mem_map.mp member
    exact hunk.whole.2 inner inside

theorem whole_texts (names : Names) (change : FileChange) :
    ∀ line ∈ change.texts names, lineFeed ∉ line := by
  intro line member
  unfold FileChange.texts at member
  rcases List.mem_append.mp member with before | member
  · exact (change.plain line before).2
  · split at member
    · cases member
    · rcases List.mem_append.mp member with header | hunks
      · exact whole_headers names change line header
      · obtain ⟨hunk, -, inside⟩ := List.mem_flatMap.mp hunks
        exact whole_hunk hunk line inside

theorem lines_gitDiff (names : Names) (changes : List FileChange) :
    lines (gitDiff names changes) = changes.flatMap (FileChange.texts names) ++ [[]] := by
  refine lines_joined (by simp) fun line member => ?_
  rcases List.mem_append.mp member with inside | last
  · obtain ⟨change, -, inside⟩ := List.mem_flatMap.mp inside
    exact whole_texts names change line inside
  · rw [List.mem_singleton.mp last]
    exact List.not_mem_nil

theorem unsigned_preamble (member : line ∈ change.preamble) : changed line = false := by
  have starts := (change.plain line member).1
  cases line with
  | nil => rfl
  | cons unit rest =>
    simp only [List.head?_cons, Option.any_some, letter, decide_eq_true_eq] at starts
    simp only [changed, List.head?_cons, Option.any_some, decide_eq_false_iff_not]
    omega

/-- A property of lines that a line without a sign does not have. -/
theorem exists_texts_iff (unsigned : ∀ line, changed line = false → ¬ held line) :
    (∃ line ∈ change.texts names, held line) ↔
      (change.hunks ≠ [] ∧ ∃ line ∈ change.headers names, held line) ∨
        ∃ line ∈ change.hunks.flatMap Hunk.lines, held line.text := by
  constructor
  · rintro ⟨line, member, holds⟩
    unfold FileChange.texts at member
    rcases List.mem_append.mp member with before | member
    · exact absurd holds (unsigned line (unsigned_preamble before))
    · split at member
      · cases member
      · rename_i some'
        rcases List.mem_append.mp member with header | hunks
        · exact .inl ⟨some', line, header, holds⟩
        · obtain ⟨hunk, hunkOf, inside⟩ := List.mem_flatMap.mp hunks
          rcases List.mem_cons.mp inside with rfl | inside
          · exact absurd holds (unsigned _ (by rfl))
          · obtain ⟨inner, innerOf, rfl⟩ := List.mem_map.mp inside
            exact .inr ⟨inner, List.mem_flatMap.mpr ⟨hunk, hunkOf, innerOf⟩, holds⟩
  · rintro (⟨some', line, header, holds⟩ | ⟨line, member, holds⟩)
    · refine ⟨line, List.mem_append_right _ ?_, holds⟩
      rw [if_neg some']
      exact List.mem_append_left _ header
    · obtain ⟨hunk, hunkOf, inside⟩ := List.mem_flatMap.mp member
      refine ⟨line.text, List.mem_append_right _ ?_, holds⟩
      rw [if_neg (List.ne_nil_of_mem hunkOf)]
      refine List.mem_append_right _ (List.mem_flatMap.mpr ⟨hunk, hunkOf, ?_⟩)
      exact List.mem_cons_of_mem _ (List.mem_map.mpr ⟨line, inside, rfl⟩)

theorem exists_lines_iff (unsigned : ∀ line, changed line = false → ¬ held line) :
    (∃ line ∈ lines (gitDiff names changes), held line) ↔
      (∃ change ∈ changes, change.hunks ≠ [] ∧ ∃ line ∈ change.headers names, held line) ∨
        ∃ line ∈ hunkLines changes, held line.text := by
  rw [lines_gitDiff]
  constructor
  · rintro ⟨line, member, holds⟩
    rcases List.mem_append.mp member with inside | last
    · obtain ⟨change, changeOf, inside⟩ := List.mem_flatMap.mp inside
      rcases (exists_texts_iff unsigned).mp ⟨line, inside, holds⟩ with header | ⟨inner, member, holds⟩
      · exact .inl ⟨change, changeOf, header⟩
      · exact .inr ⟨inner, List.mem_flatMap.mpr ⟨change, changeOf, member⟩, holds⟩
    · rw [List.mem_singleton.mp last] at holds
      exact absurd holds (unsigned [] (by rfl))
  · have inside : ∀ change ∈ changes, (∃ line ∈ change.texts names, held line) →
        ∃ line ∈ changes.flatMap (FileChange.texts names) ++ [[]], held line := by
      rintro change changeOf ⟨line, member, holds⟩
      exact ⟨line, List.mem_append_left _ (List.mem_flatMap.mpr ⟨change, changeOf, member⟩), holds⟩
    rintro (⟨change, changeOf, header⟩ | ⟨line, member, holds⟩)
    · exact inside change changeOf ((exists_texts_iff unsigned).mpr (.inl header))
    · obtain ⟨change, changeOf, member⟩ := List.mem_flatMap.mp member
      exact inside change changeOf ((exists_texts_iff unsigned).mpr (.inr ⟨line, member, holds⟩))

/-- A path that a header line shows, as it is read. -/
def ShownPath (names : Names) (changes : List FileChange) (path : Text) : Prop :=
  ∃ change ∈ changes, change.hunks ≠ [] ∧ ∃ name ∈ change.paths, names.Shown name ∧
    path = Text.trim name ∧ path ≠ Text.units "/dev/null"

theorem mem_extract {path : Text} :
    path ∈ extractDiffPaths (gitDiff names changes) ↔
      ShownPath names changes path ∨ ∃ line ∈ hunkLines changes, path ∈ linePaths line.text := by
  rw [mem_extractDiffPaths, exists_lines_iff fun line unsigned => by
    rw [linePaths_of_unsigned unsigned]
    exact List.not_mem_nil]
  unfold ShownPath
  simp only [← List.mem_flatMap, FileChange.mem_headers]

theorem meaningfulChange_iff :
    meaningfulChange (gitDiff names changes) = true ↔
      ∃ content ∈ changedContents changes, Text.trim content ≠ [] ∧ ¬ Signed content := by
  have headers : ∀ change : FileChange, ¬ ∃ line ∈ change.headers names, meaningful line = true := by
    rintro change ⟨line, member, counts⟩
    rcases List.mem_pair.mp member with rfl | rfl
    · rw [meaningful_header (show Sign 45 = true by decide) (by decide)] at counts
      cases counts
    · rw [meaningful_header (show Sign 43 = true by decide) (by decide)] at counts
      cases counts
  rw [meaningfulChange, List.any_eq_true, exists_lines_iff fun line unsigned => by
    rw [meaningful_unsigned unsigned]
    decide]
  simp only [headers, and_false, exists_false, false_or, meaningful_text]
  constructor
  · rintro ⟨line, member, content, contentOf, counts⟩
    exact ⟨content, mem_changedContents.mpr ⟨line, member, contentOf⟩, counts⟩
  · rintro ⟨content, member, counts⟩
    obtain ⟨line, lineOf, contentOf⟩ := mem_changedContents.mp member
    exact ⟨line, lineOf, content, contentOf, counts⟩

/-! ## The gate -/

/-- Exactly the changed paths are read, off header lines alone, and the result is `EMPTY`
if nothing changed or all that changed is blank. -/
def SeesChanges (names : Names) (changes : List FileChange) (plan : Option Text) : Prop :=
  (∀ path, path ∈ extractDiffPaths (gitDiff names changes) ↔ path ∈ changedPaths changes) ∧
    (∀ line ∈ hunkLines changes, linePaths line.text = []) ∧
      ((classifyDiffAgainstPlan (gitDiff names changes) plan).result = .empty ↔
        changes = [] ∨ ∀ content ∈ changedContents changes, Text.trim content = [])

/-- What the changes must be like for the gate to see them. -/
structure Plain (names : Names) (changes : List FileChange) : Prop where
  /-- No changed line is printed as a header line. -/
  contents : ∀ line ∈ hunkLines changes, ¬ line.ReadsAsHeader
  /-- Each path stands in the header lines of a file with hunks. -/
  shown : ∀ path ∈ changedPaths changes, ShownPath names changes path
  /-- No path stands there with blanks at its ends. -/
  whole : ∀ path, ShownPath names changes path → path ∈ changedPaths changes
  /-- Not all that changed starts with two signs and a blank. -/
  unsigned : (∃ content ∈ changedContents changes, Text.trim content ≠ []) →
    ∃ content ∈ changedContents changes, Text.trim content ≠ [] ∧ ¬ Signed content

theorem exists_changedPath (some' : changes ≠ []) : ∃ path, path ∈ changedPaths changes := by
  obtain ⟨change, rest, rfl⟩ := List.exists_cons_of_ne_nil some'
  have named : ∃ path, path ∈ change.paths := by
    rcases change.changes with old | new
    · obtain ⟨path, shape⟩ := Option.isSome_iff_exists.mp old
      exact ⟨path, List.mem_append_left _ (by simp [shape])⟩
    · obtain ⟨path, shape⟩ := Option.isSome_iff_exists.mp new
      exact ⟨path, List.mem_append_right _ (by simp [shape])⟩
  obtain ⟨path, member⟩ := named
  exact ⟨path, List.mem_append_left _ member⟩

theorem sees_changes_iff (names : Names) (changes : List FileChange) (plan : Option Text) :
    SeesChanges names changes plan ↔ Plain names changes := by
  unfold SeesChanges
  simp only [classify_empty_iff, linePaths_text, ← Bool.not_eq_true, meaningfulChange_iff]
  constructor
  · rintro ⟨exactly, contents, empty⟩
    have unread : ¬ ∃ path, ∃ line ∈ hunkLines changes, path ∈ linePaths line.text := by
      rintro ⟨path, line, member, read⟩
      rw [(linePaths_text line).mpr (contents line member)] at read
      cases read
    have shownIff : ∀ path, ShownPath names changes path ↔ path ∈ changedPaths changes := by
      intro path
      rw [← exactly, mem_extract]
      exact ⟨.inl, fun either => either.resolve_right fun read => unread ⟨path, read⟩⟩
    refine ⟨contents, fun path => (shownIff path).mpr, fun path => (shownIff path).mp, ?_⟩
    rintro ⟨content, member, filled⟩
    by_contra signed
    rcases empty.mp (.inr signed) with none | blank
    · rw [none] at member
      cases member
    · exact filled (blank content member)
  · intro plain
    have exactly : ∀ path, path ∈ extractDiffPaths (gitDiff names changes) ↔
        path ∈ changedPaths changes := by
      intro path
      rw [mem_extract]
      constructor
      · rintro (shown | ⟨line, member, read⟩)
        · exact plain.whole path shown
        · rw [(linePaths_text line).mpr (plain.contents line member)] at read
          cases read
      · exact fun member => .inl (plain.shown path member)
    refine ⟨exactly, plain.contents, ?_⟩
    constructor
    · rintro (none | unchanged)
      · refine .inl (by_contra fun some' => ?_)
        obtain ⟨path, member⟩ := exists_changedPath some'
        have read := (exactly path).mpr member
        rw [none] at read
        cases read
      · refine .inr fun content member => by_contra fun filled => ?_
        exact unchanged (plain.unsigned ⟨content, member, filled⟩)
    · rintro (rfl | blank)
      · refine .inl (List.eq_nil_iff_forall_not_mem.mpr fun path read => ?_)
        cases (exactly path).mp read
      · refine .inr ?_
        rintro ⟨content, member, filled, -⟩
        exact filled (blank content member)

/-! ## A comment that is removed -/

def unusualUnit (unit : Nat) : Bool := unit < 32 ∨ unit = 34 ∨ unit = 92 ∨ 127 ≤ unit

def octalEscape (unit : Nat) : Text :=
  [92, 48 + unit / 64 % 8, 48 + unit / 8 % 8, 48 + unit % 8]

/-- Names with a unit that is not printable ASCII are quoted. -/
def quotedNames : Names where
  quotes name := name.any unusualUnit
  escape name := name.flatMap fun unit => if unusualUnit unit then octalEscape unit else [unit]
  unusual name := by
    rintro ⟨unit, member, unusual⟩
    refine List.any_eq_true.mpr ⟨unit, member, decide_eq_true ?_⟩
    omega
  whole name := by
    intro inside
    obtain ⟨unit, -, member⟩ := List.mem_flatMap.mp inside
    split at member
    · simp only [octalEscape, lineFeed, List.mem_cons, List.not_mem_nil, or_false] at member
      omega
    · rename_i usual
      rw [← List.mem_singleton.mp member] at usual
      exact usual (by decide)

/-- The only line of `a.sql` is a comment, and is removed. -/
def commentRemoved : FileChange where
  old := some (Text.units "a.sql")
  new := some (Text.units "a.sql")
  preamble := [Text.units "diff --git a/a.sql b/a.sql", Text.units "index 9ae9ea0..e69de29 100644"]
  hunks := [⟨Text.units " -1 +0,0 @@", [.removed (Text.units "-- x")], by decide⟩]
  changes := .inl rfl
  named := by decide
  plain := by decide

theorem removed_comment_empty :
    (classifyDiffAgainstPlan (gitDiff quotedNames [commentRemoved]) none).result = .empty ∧
      ¬ SeesChanges quotedNames [commentRemoved] none := by
  have empty : (classifyDiffAgainstPlan (gitDiff quotedNames [commentRemoved]) none).result =
      .empty := by decide +kernel
  refine ⟨empty, ?_⟩
  rintro ⟨-, -, only⟩
  rcases only.mp empty with none | blank
  · cases none
  · exact absurd (blank (Text.units "-- x") (by decide)) (by decide)

end Verify
end Scrum4Me
