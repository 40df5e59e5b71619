import Scrum4Me.Verify.DiffPaths

/-!
# Diffs as they are printed

`git diff` prints each changed file with a preamble and, where lines changed, with two
header lines and its hunks. A rename without edits, a change of mode, an empty file and a
binary file have no hunks.
-/

namespace Scrum4Me
namespace Verify

open Foundation

/-- A line of a hunk, with its content. -/
inductive HunkLine
  | context (content : Text)
  | removed (content : Text)
  | added (content : Text)
  /-- The file does not end with a line feed. -/
  | noNewline

def HunkLine.text : HunkLine → Text
  | .context content => 32 :: content
  | .removed content => 45 :: content
  | .added content => 43 :: content
  | .noNewline => 92 :: Text.units " No newline at end of file"

/-- The content of a line that changed. -/
def HunkLine.changed? : HunkLine → Option Text
  | .removed content => some content
  | .added content => some content
  | _ => none

structure Hunk where
  /-- What follows `@@`. -/
  ranges : Text
  lines : List HunkLine
  whole : lineFeed ∉ ranges ∧ ∀ line ∈ lines, lineFeed ∉ line.text

def Hunk.texts (hunk : Hunk) : List Text :=
  (64 :: 64 :: hunk.ranges) :: hunk.lines.map HunkLine.text

/-- How unusual names are printed. Control units, quotation marks and backslashes are
always unusual. -/
structure Names where
  quotes : Text → Bool
  escape : Text → Text
  unusual : ∀ name, (∃ unit ∈ name, unit < 32 ∨ unit = 34 ∨ unit = 92) → quotes name = true
  whole : ∀ name, lineFeed ∉ escape name

/-- A name with its side; a blank in it is followed by a tab at its end. -/
def Names.printed (names : Names) (side : String) (name : Text) : Text :=
  if names.quotes name then 34 :: Text.units side ++ names.escape name ++ [34]
  else if name.contains 32 then Text.units side ++ name ++ [9]
  else Text.units side ++ name

structure FileChange where
  /-- The path before, unless the file is new. -/
  old : Option Text
  /-- The path after, unless the file is gone. -/
  new : Option Text
  /-- The line `diff --git`, modes, renames, the index, and that binary files differ. -/
  preamble : List Text
  hunks : List Hunk
  changes : old.isSome ∨ new.isSome
  named : ∀ path ∈ old.toList ++ new.toList, path ≠ []
  plain : ∀ line ∈ preamble, line.head?.any letter ∧ lineFeed ∉ line

namespace FileChange

/-- The old and the new path. -/
def paths (change : FileChange) : List Text := change.old.toList ++ change.new.toList

def headers (names : Names) (change : FileChange) : List Text :=
  [Text.units "--- " ++ change.old.elim (Text.units "/dev/null") (names.printed "a/"),
    Text.units "+++ " ++ change.new.elim (Text.units "/dev/null") (names.printed "b/")]

def texts (names : Names) (change : FileChange) : List Text :=
  change.preamble ++
    if change.hunks = [] then [] else change.headers names ++ change.hunks.flatMap Hunk.texts

/-- The contents of the lines that changed. -/
def contents (change : FileChange) : List Text :=
  change.hunks.flatMap fun hunk => hunk.lines.filterMap HunkLine.changed?

end FileChange

/-- The diff that is printed. -/
def gitDiff (names : Names) (changes : List FileChange) : Text :=
  joined lineFeed (changes.flatMap (FileChange.texts names) ++ [[]])

/-- The old and new paths of the changed files. -/
def changedPaths (changes : List FileChange) : List Text := changes.flatMap FileChange.paths

def changedContents (changes : List FileChange) : List Text :=
  changes.flatMap FileChange.contents

/-! ## Header lines -/

def Header (sign : Text) (line path : Text) : Prop :=
  ∃ name, line = sign ++ name ∧ name ≠ [] ∧ (∀ unit ∈ name, ¬ Text.LineEnd unit) ∧
    path = Text.trim name ∧ path ≠ Text.units "/dev/null"

variable {line path : Text}

theorem headerPath?_eq_some {sign : Text} :
    headerPath? (.sequence [.inputStart, .literal sign, .group (anyUnits 1), .inputEnd]) line =
        some path ↔ Header sign line path := by
  unfold headerPath? Header
  simp only [Pattern.sequence_cons, Pattern.sequence_singleton, Pattern.search_inputStart]
  by_cases starts : sign <+: line
  · obtain ⟨name, rfl⟩ := starts
    rw [Pattern.run_literal]
    have rest := Pattern.advance_start sign name
    generalize (Place.start (sign ++ name)).advance sign.length = place at rest
    by_cases fits : name ≠ [] ∧ ∀ unit ∈ name, ¬ Text.LineEnd unit
    · obtain ⟨found, first, groups⟩ := Pattern.head?_eq_some_of_all
        (fun found member => (Pattern.run_group_end member).1)
        (@Pattern.run_group_end_ne_nil (¬ Text.LineEnd ·) place (rest ▸ fits.1)
          (rest ▸ by simpa using fits.2))
      unfold anyUnits
      rw [first, Option.map_some, Option.map_some, Option.filter_eq_some_iff, groups, rest]
      constructor
      · rintro ⟨same, differs⟩
        refine ⟨name, rfl, fits.1, fits.2, ?_, by simpa using differs⟩
        exact (Option.some.inj same).symm
      · rintro ⟨other, same, -, -, rfl, differs⟩
        rw [List.append_cancel_left same]
        exact ⟨rfl, by simpa using differs⟩
    · have none : (Pattern.append (.group (anyUnits 1)) .inputEnd).run place = [] := by
        by_contra some'
        obtain ⟨found, rest', shape⟩ := List.exists_cons_of_ne_nil some'
        have matched := Pattern.run_group_end (shape ▸ List.mem_cons_self)
        rw [rest] at matched
        exact fits ⟨matched.2.1, by simpa using matched.2.2⟩
      rw [none]
      constructor
      · intro found
        cases found
      · rintro ⟨other, same, filled, units, -⟩
        rw [← List.append_cancel_left same] at filled units
        exact absurd ⟨filled, units⟩ fits
  · have none : (Pattern.append (.literal sign)
        (.append (.group (anyUnits 1)) .inputEnd)).run (Place.start line) = [] := by
      simp [Pattern.run, Place.start, starts]
    rw [none]
    constructor
    · intro found
      cases found
    · rintro ⟨name, rfl, -⟩
      exact absurd (List.prefix_append _ _) starts

theorem mem_linePaths :
    path ∈ linePaths line ↔
      Header (Text.units "+++ b/") line path ∨ Header (Text.units "--- a/") line path := by
  rw [linePaths, List.mem_append, Option.mem_toList, Option.mem_toList]
  exact or_congr headerPath?_eq_some headerPath?_eq_some

theorem trimmed_concat
    {drops : Nat → Bool} {unit : Nat} (text : Text) (dropped : drops unit = true) :
    ((text ++ [unit]).dropWhile drops).rdropWhile drops =
      (text.dropWhile drops).rdropWhile drops := by
  by_cases all : ∀ other ∈ text, drops other = true
  · rw [List.dropWhile_append_of_pos all, List.dropWhile_eq_nil_iff.mpr all,
      List.dropWhile_cons_of_pos dropped]
    rfl
  · have stays : (text ++ [unit]).dropWhile drops = text.dropWhile drops ++ [unit] := by
      rw [List.dropWhile_append, if_neg]
      intro empty
      exact all (List.dropWhile_eq_nil_iff.mp (List.isEmpty_iff.mp empty))
    rw [stays, List.rdropWhile_concat_pos _ _ _ dropped]

theorem trim_append_space {unit : Nat} (text : Text) (space : Text.Space unit) :
    Text.trim (text ++ [unit]) = Text.trim text :=
  trimmed_concat text (decide_eq_true space)

/-- A name is printed as it is. -/
def Names.Shown (names : Names) (name : Text) : Prop :=
  names.quotes name = false ∧ ∀ unit ∈ name, ¬ Text.LineEnd unit

theorem header_printed {names : Names} {sign side : String} {name : Text} {first : Nat}
    (starts : (Text.units side).head? = some first) (plain : first ≠ 34) (filled : name ≠ []) :
    Header (Text.units sign ++ Text.units side) (Text.units sign ++ names.printed side name) path ↔
      names.Shown name ∧ path = Text.trim name ∧ path ≠ Text.units "/dev/null" := by
  unfold Header Names.printed Names.Shown
  simp only [List.append_assoc, List.append_cancel_left_eq]
  obtain ⟨rest, shape⟩ := List.head?_eq_some_iff.mp starts
  cases quoted : names.quotes name with
  | true =>
    rw [if_pos rfl]
    constructor
    · rintro ⟨other, same, -⟩
      rw [shape, List.cons_append] at same
      exact absurd (List.cons.inj same).1.symm plain
    · rintro ⟨⟨shown, -⟩, -⟩
      cases shown
  | false =>
    rw [if_neg (by decide)]
    split
    · constructor
      · rintro ⟨other, same, -, units, rfl, differs⟩
        obtain rfl := List.append_cancel_left same
        refine ⟨⟨rfl, fun unit member => units unit (List.mem_append_left _ member)⟩, ?_, differs⟩
        exact trim_append_space name (by decide)
      · rintro ⟨⟨-, units⟩, rfl, differs⟩
        refine ⟨name ++ [9], rfl, by simp, ?_, ?_, differs⟩
        · intro unit member
          rcases List.mem_append.mp member with inside | tab
          · exact units unit inside
          · rw [List.mem_singleton.mp tab]
            decide
        · exact (trim_append_space name (by decide)).symm
    · constructor
      · rintro ⟨other, same, -, units, rfl, differs⟩
        obtain rfl := List.append_cancel_left same
        exact ⟨⟨rfl, units⟩, rfl, differs⟩
      · rintro ⟨⟨-, units⟩, rfl, differs⟩
        exact ⟨name, rfl, filled, units, rfl, differs⟩

/-- The header line of a side, on which there may be no file. -/
theorem header_side {names : Names} {sign side : String} {name? : Option Text} {first : Nat}
    (starts : (Text.units side).head? = some first) (plain : first ≠ 34 ∧ first ≠ 47)
    (filled : ∀ name ∈ name?.toList, name ≠ []) :
    Header (Text.units sign ++ Text.units side)
        (Text.units sign ++ name?.elim (Text.units "/dev/null") (names.printed side)) path ↔
      ∃ name ∈ name?.toList, names.Shown name ∧ path = Text.trim name ∧
        path ≠ Text.units "/dev/null" := by
  cases name? with
  | none =>
    constructor
    · rintro ⟨other, same, -⟩
      rw [List.append_assoc, Option.elim_none] at same
      have heads := congrArg List.head? (List.append_cancel_left same)
      rw [List.head?_append, starts] at heads
      exact absurd (Option.some.inj heads).symm plain.2
    · rintro ⟨name, member, -⟩
      cases member
  | some name =>
    rw [Option.elim_some, header_printed starts plain.1 (filled name (by simp))]
    simp

/-- A line with another first unit is no header. -/
theorem Header.first {sign : Text} {first : Nat} (header : Header sign line path)
    (starts : sign.head? = some first) :
    line.head? = some first := by
  obtain ⟨name, rfl, -⟩ := header
  rw [List.head?_append, starts]
  rfl

theorem mem_linePaths_minus (starts : line.head? = some 45) :
    path ∈ linePaths line ↔ Header (Text.units "--- a/") line path := by
  rw [mem_linePaths, or_iff_right]
  intro header
  have first := header.first (show (Text.units "+++ b/").head? = some 43 by decide)
  rw [starts] at first
  cases first

theorem mem_linePaths_plus (starts : line.head? = some 43) :
    path ∈ linePaths line ↔ Header (Text.units "+++ b/") line path := by
  rw [mem_linePaths, or_iff_left]
  intro header
  have first := header.first (show (Text.units "--- a/").head? = some 45 by decide)
  rw [starts] at first
  cases first

theorem linePaths_of_unsigned (unsigned : changed line = false) : linePaths line = [] := by
  refine List.eq_nil_iff_forall_not_mem.mpr fun path member => ?_
  rcases mem_linePaths.mp member with header | header
  · have first := header.first (show (Text.units "+++ b/").head? = some 43 by decide)
    rw [changed, first] at unsigned
    cases unsigned
  · have first := header.first (show (Text.units "--- a/").head? = some 45 by decide)
    rw [changed, first] at unsigned
    cases unsigned

namespace FileChange

variable {names : Names} {change : FileChange}

/-- The paths of the header lines are those that are printed as they are. -/
theorem mem_headers :
    path ∈ (change.headers names).flatMap linePaths ↔
      ∃ name ∈ change.paths, names.Shown name ∧ path = Text.trim name ∧
        path ≠ Text.units "/dev/null" := by
  have minus : Text.units "--- a/" = Text.units "--- " ++ Text.units "a/" := by decide
  have plus : Text.units "+++ b/" = Text.units "+++ " ++ Text.units "b/" := by decide
  unfold headers paths
  rw [List.flatMap_cons, List.flatMap_cons, List.flatMap_nil, List.append_nil, List.mem_append,
    mem_linePaths_minus (List.head?_append ▸ rfl), mem_linePaths_plus (List.head?_append ▸ rfl),
    minus, plus,
    header_side (show (Text.units "a/").head? = some 97 by decide) (by decide)
      fun name member => change.named name (List.mem_append_left _ member),
    header_side (show (Text.units "b/").head? = some 98 by decide) (by decide)
      fun name member => change.named name (List.mem_append_right _ member)]
  simp only [List.mem_append, or_and_right, exists_or]

end FileChange

end Verify
end Scrum4Me
