import Scrum4Me.Verify.Plans

/-!
# A diff against its plan

`classifyDiffAgainstPlan` reads the changed paths off the header lines of a unified diff
and compares them with the paths of the plan.
-/

namespace Scrum4Me
namespace Verify

open Foundation

/-! ## The paths of a diff -/

def anyUnits (least : Nat) : Pattern := .many (¬ Text.LineEnd ·) least none

def plusHeader : Pattern :=
  .sequence [.inputStart, .literal (Text.units "+++ b/"), .group (anyUnits 1), .inputEnd]

def minusHeader : Pattern :=
  .sequence [.inputStart, .literal (Text.units "--- a/"), .group (anyUnits 1), .inputEnd]

/-- The path of a header line, unless it is that of no file. -/
def headerPath? (header : Pattern) (line : Text) : Option Text :=
  ((header.search none line).map fun found =>
    Text.trim (found.matched.groups.getD 0 [])).filter (· ≠ Text.units "/dev/null")

def linePaths (line : Text) : List Text :=
  (headerPath? plusHeader line).toList ++ (headerPath? minusHeader line).toList

/-- The changed paths, each once. -/
def extractDiffPaths (diff : Text) : List Text := ((lines diff).flatMap linePaths).eraseDups

def changed (line : Text) : Bool := line.head?.any fun unit => unit = 43 ∨ unit = 45

def headerLine : Pattern :=
  .sequence [.inputStart, .many (fun unit => unit = 43 ∨ unit = 45) 3 (some 3),
    .one (Text.Space ·)]

/-- A changed line that is no header and not blank. -/
def meaningful (line : Text) : Bool :=
  changed line && !headerLine.test line && 0 < (Text.trim (line.drop 1)).length

def meaningfulChange (diff : Text) : Bool := (lines diff).any meaningful

def changedLines (diff : Text) : Nat := ((lines diff).filter changed).length

/-! ## Paths that match -/

/-- `text.split(separator)`; `skip` units of a separator are still to come. -/
def splitText (separator current : Text) (skip : Nat) : Text → List Text
  | [] => [current]
  | unit :: rest =>
      if 0 < skip then splitText separator current (skip - 1) rest
      else if separator.isPrefixOf (unit :: rest) then
        current :: splitText separator [] (separator.length - 1) rest
      else splitText separator (current ++ [unit]) 0 rest

/-- `(?:.*/)?` -/
def anyDirectories : Pattern := .optional (.append (anyUnits 0) (.literal [47]))

def globPart (part : Text) : Pattern :=
  .sequence (((splitText [42] [] 0 part).map .literal).intersperse (.many (· ≠ 47) 0 none))

def globDirectories (directories : Text) : Pattern :=
  .sequence (((splitText (Text.units "**") [] 0 directories).map globPart).intersperse (anyUnits 0))

def globToRegExp (glob : Text) : Pattern :=
  .sequence [.inputStart, anyDirectories,
    .sequence (((splitText (Text.units "**/") [] 0 glob).map globDirectories).intersperse
      anyDirectories),
    .inputEnd]

/-- `path.replace(/\\/g, '/')` -/
def withSlashes (path : Text) : Text := path.map fun unit => if unit = 92 then 47 else unit

/-- A path of the plan matches a path of the diff. -/
def pathMatch (planPath diffPath : Text) : Bool :=
  let norm := withSlashes planPath
  let ndp := withSlashes diffPath
  if norm.contains 42 then (globToRegExp norm).test ndp
  else if norm.getLast? = some 47 then norm.isPrefixOf ndp ∨ 47 :: norm <:+: ndp
  else ndp = norm ∨ (47 :: norm).isSuffixOf ndp ∨ (47 :: ndp).isSuffixOf norm

def pathMatches (planPath : Text) (diffPaths : List Text) : Bool :=
  diffPaths.any (pathMatch planPath)

/-! ## The result -/

inductive VerifyResultValue
  | aligned | partially | empty | divergent
  deriving DecidableEq

/-- What the reasoning says. -/
inductive Reasoning
  | noFileChanges
  | onlyHeadersOrBlanks
  | noBaselineTooLarge (changedLines : Nat)
  | noBaseline (files : Nat)
  | noPathsTooLarge (changedLines : Nat)
  | noPaths (files : Nat)
  | missing (covered total : Nat) (missing : List Text)
  | scopeCreep (planPaths diffPaths scope : Nat) (extra : List Text)
  | covered (planPaths diffPaths scope : Nat)

structure ClassifyResult where
  result : VerifyResultValue
  reasoning : Reasoning

/-- The paths of the diff that the plan covers. -/
def inPlan (planPaths diffPaths : List Text) : List Text :=
  diffPaths.filter fun diffPath => planPaths.any fun planPath => pathMatches planPath [diffPath]

/-- The larger of the number of paths in the plan and the number it covers. -/
def scopeSize (planPaths diffPaths : List Text) : Nat :=
  max planPaths.length (inPlan planPaths diffPaths).length

/-- The plan and the diff have paths, and the diff a change. -/
def classifyPaths (planPaths diffPaths : List Text) : ClassifyResult :=
  let covered := planPaths.filter (pathMatches · diffPaths)
  let scope := scopeSize planPaths diffPaths
  if covered.length < planPaths.length then
    ⟨.partially, .missing covered.length planPaths.length
      (planPaths.filter (!pathMatches · diffPaths))⟩
  else if 3 * scope ≤ diffPaths.length then
    ⟨.divergent, .scopeCreep planPaths.length diffPaths.length scope
      (diffPaths.filter fun diffPath =>
        !planPaths.any fun planPath => pathMatches planPath [diffPath])⟩
  else ⟨.aligned, .covered planPaths.length diffPaths.length scope⟩

def classifyDiffAgainstPlan (diff : Text) (plan : Option Text) : ClassifyResult :=
  let diffPaths := extractDiffPaths diff
  let plan := plan.getD []
  if diffPaths = [] then ⟨.empty, .noFileChanges⟩
  else if !meaningfulChange diff then ⟨.empty, .onlyHeadersOrBlanks⟩
  else if Text.trim plan = [] then
    if 50 < changedLines diff then ⟨.divergent, .noBaselineTooLarge (changedLines diff)⟩
    else ⟨.aligned, .noBaseline diffPaths.length⟩
  else if extractPlanPaths plan = [] then
    if 50 < changedLines diff then ⟨.divergent, .noPathsTooLarge (changedLines diff)⟩
    else ⟨.aligned, .noPaths diffPaths.length⟩
  else classifyPaths (extractPlanPaths plan) diffPaths

end Verify
end Scrum4Me
