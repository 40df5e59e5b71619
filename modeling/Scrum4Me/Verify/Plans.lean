import Scrum4Me.Foundation.Delimited
import Scrum4Me.Foundation.Patterns
import Mathlib.Data.List.Infix

/-!
# The paths of a plan

`extractPlanPaths` reads the paths that a plan says to change: in backticks or as the
headings of a list, outside what the plan leaves alone.
-/

namespace Scrum4Me
namespace Verify

open Foundation

def backtick : Nat := 96

def lineFeed : Nat := 10

/-- `text.split('\n')` -/
def lines (text : Text) : List Text := text.splitOn lineFeed

/-! ## Sections -/

def hashes : Pattern := .group (.many (· = 35) 1 (some 6))

/-- `FILES_HEADING` -/
def filesHeading : Pattern :=
  .sequence [.inputStart, hashes, .many (Text.Space ·) 0 none,
    .either (.caseless "bestanden") (.caseless "files"), .wordBoundary]

def anyHeading : Pattern := .sequence [.inputStart, hashes, .one (Text.Space ·)]

/-- How many hashes a heading starts with. -/
def headingLevel (heading : Pattern) (line : Text) : Option Nat :=
  (heading.search none line).map fun found => (found.matched.groups.headD []).length

/-- The lines inside sections of files; the level is positive inside of one. -/
def sectionLines (level : Nat) : List Text → List Text
  | [] => []
  | line :: rest =>
      (headingLevel filesHeading line).elim
        (if (headingLevel anyHeading line).any fun other => 0 < level ∧ other ≤ level then
          sectionLines 0 rest
        else if 0 < level then line :: sectionLines level rest
        else sectionLines level rest)
        fun files => sectionLines files rest

def filesSections (plan : Text) : Text :=
  if (lines plan).any fun line => (headingLevel filesHeading line).isSome then
    joined lineFeed (sectionLines 0 (lines plan))
  else plan

/-! ## Clauses -/

/-- The text cut at the units that are boundaries, never between backticks. -/
def splitOutsideCode (isBoundary : Nat → Option Nat → Bool) (current : Text) (inCode : Bool) :
    Text → List Text
  | [] => [current]
  | unit :: rest =>
      let inCode := if unit = backtick then !inCode else inCode
      if !inCode && isBoundary unit rest.head? then
        current :: splitOutsideCode isBoundary [] inCode rest
      else splitOutsideCode isBoundary (current ++ [unit]) inCode rest

def codeSpan : Pattern :=
  .sequence [.literal [backtick], .many (· ≠ backtick) 0 none, .literal [backtick]]

def listWord : Pattern :=
  .sequence [.wordBoundary,
    .group (.either (.caseless "en")
      (.either (.caseless "and") (.either (.caseless "of") (.caseless "or")))),
    .wordBoundary]

/-- Nothing but paths, connectives and punctuation. -/
def isPathList (text : Text) : Bool :=
  (listWord.replaceAll [32] (codeSpan.replaceAll [32] text)).all fun unit =>
    Text.Space unit ∨ unit ∈ Text.units ":,.()-*"

/-- `NEGATIVE_CLAUSE` -/
def negativeClause : Pattern :=
  .sequence [.wordBoundary,
    .either (.sequence [.caseless "niet", .many (Text.Space ·) 1 none,
        .either (.caseless "wijzigen") (.either (.caseless "aanpassen") (.caseless "aanraken"))])
      (.either (.caseless "ongewijzigd")
        (.sequence [.caseless "do", .many (Text.Space ·) 1 none, .caseless "not",
          .many (Text.Space ·) 1 none,
          .either (.caseless "change")
            (.either (.caseless "modify") (.either (.caseless "touch") (.caseless "edit")))])),
    .wordBoundary]

/-- What follows the negation that a segment starts with. -/
def negated? (segment : Text) : Option Text :=
  (negativeClause.search none segment).bind fun found =>
    if found.before.all fun unit => Text.Space unit ∨ unit = 45 ∨ unit = 42 then
      some found.matched.ends.rest
    else none

/-- The segments of a clause that are kept. -/
def positiveSegments (excluding : Bool) : List Text → List Text
  | [] => []
  | segment :: rest =>
      (negated? segment).elim (if !excluding then segment :: positiveSegments excluding rest
        else if !segment.contains backtick then positiveSegments excluding rest
        else if isPathList segment then positiveSegments excluding rest
        else segment :: positiveSegments false rest)
        fun after =>
          if isPathList after then positiveSegments true rest
          else segment :: positiveSegments false rest

/-- A clause ends at `;` and at a full stop. -/
def endsClause (unit : Nat) (next : Option Nat) : Bool :=
  unit = 59 ∨ unit = 46 ∧ next.all (Text.Space ·)

def positiveClause (clause : Text) : Text :=
  joined 44 (positiveSegments false (splitOutsideCode (fun unit _ => unit = 44) [] false clause))

def positiveClauses (line : Text) : Text :=
  joined 59 ((splitOutsideCode endsClause [] false line).map positiveClause)

/-! ## Paths -/

def notBrace (unit : Nat) : Bool := unit ≠ 123 ∧ unit ≠ 125

def braceGroup : Pattern :=
  .sequence [.inputStart, .group (.many notBrace 0 none), .literal [123],
    .group (.many notBrace 0 none), .literal [125], .group (.many notBrace 0 none), .inputEnd]

/-- One brace group written out. -/
def expandBraces (token : Text) : List Text :=
  (braceGroup.search none token).elim [token] fun found =>
    ((found.matched.groups.getD 1 []).splitOn 44).map fun alternative =>
      found.matched.groups.getD 0 [] ++ Text.trim alternative ++
        found.matched.groups.getD 2 []

def letter (unit : Nat) : Bool := 65 ≤ unit ∧ unit ≤ 90 ∨ 97 ≤ unit ∧ unit ≤ 122

def extension : Pattern :=
  .sequence [.literal [46], .one letter,
    .many (fun unit => letter unit ∨ 48 ≤ unit ∧ unit ≤ 57) 0 (some 5), .inputEnd]

/-- What no path contains. -/
def snippetUnits : Text := Text.units "=\"'<>()[]\x7b\x7d;,"

def looksLikePath (path : Text) : Bool :=
  3 < path.length ∧ 32 ∉ path ∧
    ¬ ((Text.units "@/").isPrefixOf path ∨ (Text.units "~/").isPrefixOf path) ∧
      (∀ unit ∈ path, unit ∉ snippetUnits) ∧ ¬ (Text.units ".." <:+: path) ∧
        (47 ∈ path ∨ extension.test path)

/-- Units in backticks that neither start nor end with a blank. -/
def backtickSpan : Pattern :=
  let inner := fun unit => unit ≠ backtick ∧ ¬ Text.Space unit
  .sequence [.literal [backtick],
    .group (.either (.sequence [.one (inner ·), .many (· ≠ backtick) 0 none, .one (inner ·)])
      (.one (inner ·))),
    .literal [backtick]]

def bulletHeading : Pattern :=
  .sequence [.lineStart, .one fun unit => unit = 45 ∨ unit = 42, .many (Text.Space ·) 1 none,
    .many (· = 42) 0 (some 2),
    .group (.append (.one fun unit => ¬ Text.Space unit ∧ unit ≠ 42)
      (.many (¬ Text.Space ·) 0 none)),
    .literal [46], .group (.many letter 1 (some 6)), .many (· = 42) 0 (some 2),
    .many (Text.Space ·) 0 none, .one fun unit => unit = 58 ∨ unit = 10]

/-- The text that paths are read of. -/
def planScope (plan : Text) : Text :=
  joined lineFeed ((lines (filesSections plan)).map positiveClauses)

def extractPlanPaths (plan : Text) : List Text :=
  let scope := planScope plan
  let spans := (backtickSpan.execAll scope).flatMap fun found =>
    (expandBraces (Text.trim (found.groups.getD 0 []))).filter (looksLikePath ·)
  let bullets := (bulletHeading.execAll scope).map fun found =>
    found.groups.getD 0 [] ++ 46 :: found.groups.getD 1 []
  (spans ++ bullets).eraseDups

end Verify
end Scrum4Me
