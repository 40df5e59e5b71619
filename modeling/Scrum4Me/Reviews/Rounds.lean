import Scrum4Me.Jobs.Schema
import Mathlib.Data.List.DropRight
import Mathlib.Data.List.Infix

/-!
# Rounds of a review loop

The round of a job is part of its orchestration key, `idea:{id}:plan-loop:r{n}`
or `idea:{id}:spec-loop:r{n}`; a key of another form, or none, counts as round
zero. A verdict on a plan adds a round to the log that the idea carries for its
viewer.
-/

namespace Scrum4Me
namespace Reviews

open Jobs

/-! ## Orchestration keys -/

/-- The characters that `.` does not match. -/
def LineTerminator (char : Char) : Prop :=
  char = '\n' ∨ char = '\r' ∨ char.toNat = 0x2028 ∨ char.toNat = 0x2029

instance (char : Char) : Decidable (LineTerminator char) :=
  inferInstanceAs (Decidable (_ ∨ _))

def OneLine (text : List Char) : Prop := ∀ char ∈ text, ¬ LineTerminator char

-- By way of the list, not of all characters.
instance (text : List Char) : Decidable (OneLine text) :=
  List.decidableBAll (fun char => ¬ LineTerminator char) text

/-- The identifier of an idea, a text of one line. -/
structure IdeaId where
  text : String
  nonempty : text.toList ≠ []
  oneLine : OneLine text.toList
  deriving DecidableEq

/-- The identifier in the runs below. -/
def IdeaId.sample : IdeaId := ⟨"idea", by decide, by decide⟩

/-- The two loops: `plan-loop` and `spec-loop`. -/
inductive Loop
  | plan | spec
  deriving DecidableEq

/-- What stands between the idea and the round in a key. -/
def Loop.segment : Loop → String
  | .plan => ":plan-loop:r"
  | .spec => ":spec-loop:r"

def Loop.key (loop : Loop) (ideaId : IdeaId) (round : Nat) : String :=
  "idea:" ++ ideaId.text ++ loop.segment ++ toString round

def loopKey : IdeaId → Nat → String := Loop.plan.key

def specLoopKey : IdeaId → Nat → String := Loop.spec.key

/-- `(\d+)` in a match of `/^idea:.+:(?:plan|spec)-loop:r(\d+)$/`. -/
def matchLoopKey (key : List Char) : Option (List Char) := do
  let digits := key.rtakeWhile Char.isDigit
  let rest ← (key.rdropWhile Char.isDigit).dropPrefix? "idea:".toList
  let middle ← rest.dropSuffix? Loop.plan.segment.toList <|>
    rest.dropSuffix? Loop.spec.segment.toList
  if digits ≠ [] ∧ middle ≠ [] ∧ OneLine middle then
    some digits
  else none

def parseLoopRound (key : Option String) : Nat :=
  match key.bind fun key => matchLoopKey key.toList with
  | some digits => Nat.ofDigitChars 10 digits 0
  | none => 0

@[simp] theorem parseLoopRound_none : parseLoopRound none = 0 := rfl

/-- The trailing digits after a character that is none. -/
theorem rtakeWhile_digits
    {before digits : List Char} {char : Char} (all : ∀ digit ∈ digits, digit.isDigit)
    (stop : char.isDigit = false) :
    (before ++ char :: digits).rtakeWhile Char.isDigit = digits := by
  have reversed : (before ++ char :: digits).reverse =
      digits.reverse ++ char :: before.reverse := by simp
  rw [List.rtakeWhile, reversed, List.takeWhile_append_of_pos (by simpa using all),
    List.takeWhile_cons_of_neg (by simp [stop])]
  simp

theorem rdropWhile_digits
    {before digits : List Char} {char : Char} (all : ∀ digit ∈ digits, digit.isDigit)
    (stop : char.isDigit = false) :
    (before ++ char :: digits).rdropWhile Char.isDigit = before ++ [char] := by
  have reversed : (before ++ char :: digits).reverse =
      digits.reverse ++ char :: before.reverse := by simp
  rw [List.rdropWhile, reversed, List.dropWhile_append_of_pos (by simpa using all),
    List.dropWhile_cons_of_neg (by simp [stop])]
  simp

/-- A key ends in its round. -/
theorem Loop.key_toList (loop : Loop) (ideaId : IdeaId) (round : Nat) :
    (loop.key ideaId round).toList =
      ("idea:".toList ++ (ideaId.text.toList ++ loop.segment.toList.dropLast)) ++
        'r' :: Nat.toDigits 10 round := by
  cases loop <;>
    simp [Loop.key, Loop.segment, Nat.toList_repr, List.dropLast]

/-- The segment of the loop comes off, and no other does. -/
theorem Loop.dropSuffix?_segment (loop : Loop) (middle : List Char) :
    ((middle ++ loop.segment.toList).dropSuffix? Loop.plan.segment.toList <|>
        (middle ++ loop.segment.toList).dropSuffix? Loop.spec.segment.toList) = some middle := by
  have own : (middle ++ loop.segment.toList).dropSuffix? loop.segment.toList = some middle :=
    List.dropSuffix?_eq_some_iff.mpr ⟨_, rfl, by simp⟩
  cases loop with
  | plan => rw [own]; rfl
  | spec =>
    have other : (middle ++ Loop.spec.segment.toList).dropSuffix?
        Loop.plan.segment.toList = none := by
      simp [List.dropSuffix?, Loop.segment]
    rw [own, other]
    rfl

/-- The round that went into a key comes out of it. -/
@[simp] theorem parseLoopRound_key (loop : Loop) (ideaId : IdeaId) (round : Nat) :
    parseLoopRound (some (loop.key ideaId round)) = round := by
  have digits : ∀ digit ∈ Nat.toDigits 10 round, digit.isDigit := fun _ member =>
    Nat.isDigit_of_mem_toDigits (by decide) (by decide) member
  have prefixed : (("idea:".toList ++
      (ideaId.text.toList ++ loop.segment.toList.dropLast)) ++ ['r']).dropPrefix?
        "idea:".toList = some (ideaId.text.toList ++ loop.segment.toList) := by
    refine List.dropPrefix?_eq_some_iff.mpr ⟨"idea:".toList, ?_, by simp⟩
    cases loop <;> simp [Loop.segment, List.dropLast]
  have matched : matchLoopKey (loop.key ideaId round).toList = some (Nat.toDigits 10 round) := by
    rw [Loop.key_toList]
    unfold matchLoopKey
    rw [rdropWhile_digits digits (by decide), rtakeWhile_digits digits (by decide), prefixed]
    simp only [Option.bind_eq_bind, Option.bind_some]
    rw [Loop.dropSuffix?_segment]
    exact if_pos ⟨Nat.toDigits_ne_nil, ideaId.nonempty, ideaId.oneLine⟩
  simp [parseLoopRound, matched, Nat.ofDigitChars_ten_toDigits]

def MAX_LOOP_ROUNDS : Nat := 5

/-! ## The log of reviews that an idea carries -/

/-- `ReviewVerdict`. -/
inductive Verdict
  | approved | changesRequested | rejected
  deriving DecidableEq

def Verdict.text : Verdict → String
  | .approved => "APPROVED"
  | .changesRequested => "CHANGES_REQUESTED"
  | .rejected => "REJECTED"

structure Finding where
  severity : String
  message : String
  ref : Option String
  deriving DecidableEq

inductive IssueSeverity
  | error | warning | info
  deriving DecidableEq

/-- `/word/i.test(text)` for a word in small letters. -/
def Mentions (text word : String) : Prop :=
  word.toList <:+: text.toList.map Char.toLower

instance (text word : String) : Decidable (Mentions text word) :=
  inferInstanceAs (Decidable (_ <:+: _))

def severityToIssue (severity : String) : IssueSeverity :=
  if Mentions severity "blocker" ∨ Mentions severity "major" then .error
  else if Mentions severity "minor" then .warning
  else .info

structure Issue where
  category : String
  severity : IssueSeverity
  suggestion : String
  deriving DecidableEq

def Finding.issue (finding : Finding) : Issue where
  category := "logic"
  severity := severityToIssue finding.severity
  suggestion :=
    match finding.ref with
    | some ref =>
        if ref = "" then finding.message else ref ++ ": " ++ finding.message
    | none => finding.message

def Verdict.score : Verdict → Nat
  | .approved => 100
  | .changesRequested => 50
  | .rejected => 0

/-- One of `rounds`. -/
structure ReviewRound where
  round : Nat
  model : String
  role : String := "Adversarial review"
  focus : String := "GO/NO-GO"
  issues : List Issue
  score : Nat
  planDiffLines : Nat := 0
  converged : Bool
  timestamp : Moment
  deriving DecidableEq

inductive ApprovalStatus
  | pending | approved | rejected
  deriving DecidableEq

def Verdict.approvalStatus : Verdict → ApprovalStatus
  | .approved => .approved
  | .rejected => .rejected
  | .changesRequested => .pending

structure PlanReviewLog where
  planFile : String
  createdAt : Moment
  rounds : List ReviewRound
  approvalStatus : ApprovalStatus
  approvalTimestamp : Option Moment
  summary : String
  deriving DecidableEq

/-- What `appendPlanReviewRound` gets besides the log. -/
structure RoundInput where
  round : Nat
  verdict : Verdict
  model : String
  findings : List Finding
  summary : String
  timestamp : Moment
  deriving DecidableEq

def RoundInput.entry (input : RoundInput) : ReviewRound where
  round := input.round
  model := input.model
  issues := input.findings.map Finding.issue
  score := input.verdict.score
  converged := input.verdict = .approved
  timestamp := input.timestamp

/-- The rounds of a log; a value of another shape has none. -/
def roundsOf (log : Option PlanReviewLog) : List ReviewRound :=
  (log.map (·.rounds)).getD []

def appendPlanReviewRound (existing : Option PlanReviewLog) (input : RoundInput) :
    PlanReviewLog where
  planFile := (existing.map (·.planFile)).getD ""
  createdAt := (existing.map (·.createdAt)).getD input.timestamp
  rounds := roundsOf existing ++ [input.entry]
  approvalStatus := input.verdict.approvalStatus
  approvalTimestamp :=
    if input.verdict ≠ .changesRequested then some input.timestamp else none
  summary := input.summary

end Reviews
end Scrum4Me
