import Scrum4Me.Foundation.Execution
import Scrum4Me.Foundation.Table
import Scrum4Me.Foundation.Transaction

/-!
# Updating an issue

`update_issue` reads the issue, decides what it writes, and writes it in a later
transaction: the texts with their additions, the status with its resolution, the log
rows, and the marks for the mirror.
-/

namespace Scrum4Me
namespace Issues

open Foundation

/-! ## Issues -/

/-- `IssueStatus`. -/
inductive IssueStatus
  | new | investigating | planned | closed
  deriving DecidableEq

def IssueStatus.text : IssueStatus → String
  | new => "NEW"
  | investigating => "INVESTIGATING"
  | planned => "PLANNED"
  | closed => "CLOSED"

/-- `IssueResolution`. -/
inductive IssueResolution
  | fixed | wontFix | duplicate | cannotReproduce | invalid
  deriving DecidableEq

def IssueResolution.text : IssueResolution → String
  | fixed => "FIXED"
  | wontFix => "WONT_FIX"
  | duplicate => "DUPLICATE"
  | cannotReproduce => "CANNOT_REPRODUCE"
  | invalid => "INVALID"

/-- `IssueSeverity`. -/
inductive IssueSeverity
  | s1Blocker | s2Critical | s3Major | s4Minor
  deriving DecidableEq

/-- `issues`. -/
structure IssueRow where
  id : String
  productId : String
  title : String
  researchMd : Option String
  resolutionMd : Option String
  status : IssueStatus
  resolution : Option IssueResolution
  closedAt : Option String
  severity : IssueSeverity
  linkedPbiId : Option String
  linkedIdeaId : Option String
  forgejoDirty : Bool
  forgejoSyncSeq : Nat
  deriving DecidableEq

/-- `IssueLogType`, as far as this tool writes it. -/
inductive LogType
  | statusChange | note | research | resolution | reopened
  deriving DecidableEq

/-- The phase of an issue that a call starts. -/
inductive Phase
  | research | plan
  deriving DecidableEq

def Phase.text : Phase → String
  | research => "research"
  | plan => "plan"

/-- `issue_logs`. -/
structure LogRow where
  type : LogType
  content : String
  phase : Option Phase := none
  deriving DecidableEq

/-- The rows that links are checked against. -/
structure Related where
  /-- Each with its product. -/
  pbis : List (String × String)
  ideas : List (String × String)
  /-- An idea and a further product of it. -/
  ideaProducts : List (String × String)
  deriving DecidableEq

/-- `@shared/issue-status.js`, which is not part of the repository. -/
structure IssueStatusModule where
  canTransitionIssue : IssueStatus → IssueStatus → Bool
  issueStatusFromApi : String → Option IssueStatus
  issueSeverityFromApi : String → Option IssueSeverity
  issueResolutionFromApi : String → Option IssueResolution
  issueResolutionApiValues : List String

/-! ## Deciding -/

/-- `inputSchema`, with texts that are trimmed and not empty. -/
structure Input where
  issueId : String
  title : Option String := none
  severity : Option String := none
  status : Option String := none
  resolution : Option String := none
  appendResearch : Option String := none
  appendResolution : Option String := none
  authoredBy : Option String := none
  linkPbiId : Option (Option String) := none
  linkIdeaId : Option (Option String) := none
  phase : Option Phase := none
  deriving DecidableEq

/-- `data`: the columns that are written, each with its value. -/
structure Data where
  title : Option String := none
  severity : Option IssueSeverity := none
  researchMd : Option String := none
  resolutionMd : Option String := none
  status : Option IssueStatus := none
  resolution : Option (Option IssueResolution) := none
  closedAt : Option (Option String) := none
  linkedPbiId : Option (Option String) := none
  linkedIdeaId : Option (Option String) := none
  deriving DecidableEq

/-- The line above an addition. -/
def separator (now author : String) : String := "---\n*" ++ now ++ " — " ++ author ++ "*\n\n"

def appendSection (existing : Option String) (addition author now : String) : String :=
  match existing with
  | none => separator now author ++ addition
  | some text =>
      if text = "" then separator now author ++ addition
      else text ++ "\n\n" ++ separator now author ++ addition

section Deciding

variable (shared : IssueStatusModule)

def severityData : Option String → Except String (Option IssueSeverity)
  | none => return none
  | some text =>
      some <$> require (shared.issueSeverityFromApi text) ("Onbekende severity: " ++ text)

/-- The resolution with which an issue is closed. -/
def closingResolution (code : Option String) : Except String IssueResolution := do
  let codes := String.intercalate ", " shared.issueResolutionApiValues
  let code ← require code
    ("Sluiten vereist een resolution-code (" ++ codes ++ "). Dat is de machineleesbare " ++
      "uitkomst; zet de prozetoelichting in append_resolution.")
  let seen := if 40 < code.length then String.ofList (code.toList.take 40) ++ "…" else code
  require (shared.issueResolutionFromApi code)
    ("Ongeldige resolution-code '" ++ seen ++ "'. Kies er één: " ++ codes ++ ". " ++
      "Vrije tekst hoort in append_resolution, niet in resolution.")

/-- What the status adds to the data and the logs. -/
def statusData (issue : IssueRow) (input : Input) (author now : String) :
    Except String (Data × List LogRow) :=
  match input.status with
  | none => do
      ensure (input.resolution = none) "Resolution kan alleen samen met status=closed"
      return ({}, [])
  | some status => do
      let target ← require (shared.issueStatusFromApi status) ("Onbekende status: " ++ status)
      ensure (shared.canTransitionIssue issue.status target = true)
        ("Transitie " ++ issue.status.text ++ " → " ++ target.text ++ " is niet toegestaan")
      if target = .closed then
        let resolution ← closingResolution shared input.resolution
        return ({ status := some .closed
                  resolution := some (some resolution)
                  closedAt := some (some now) },
          [{ type := .statusChange
             content := issue.status.text ++ " → CLOSED (" ++ resolution.text ++ ")" }])
      else if issue.status = .closed then
        return ({ status := some target, resolution := some none, closedAt := some none },
          [{ type := .statusChange, content := "CLOSED → " ++ target.text },
            { type := .reopened
              content := "Heropend door " ++ author ++ " (was " ++
                (issue.resolution.elim "null" IssueResolution.text) ++ ")" }])
      else
        return ({ status := some target },
          [{ type := .statusChange, content := issue.status.text ++ " → " ++ target.text }])

/-- The log row of a phase. -/
def phaseLog (issue : IssueRow) (input : Input) (data : Data) (author : String) :
    Except String (List LogRow) :=
  match input.phase with
  | none => return []
  | some phase => do
      ensure (data.status ≠ some .closed) "Een fase start niet bij het sluiten"
      ensure (¬ (issue.status = .closed ∧ data.status ≠ some .investigating))
        "Issue is gesloten; heropen eerst (status investigating)"
      return [{ type := .note
                content := "Fase " ++ phase.text ++ " gestart door " ++ author
                phase := some phase }]

/-- What a call decides from the issue that it read. -/
def decideUpdate (issue : IssueRow) (input : Input) (username now : String) :
    Except String (Data × List LogRow) := do
  let author := input.authoredBy.getD username
  let severity ← severityData shared input.severity
  let texts : List LogRow :=
    (input.appendResearch.map fun _ =>
        { type := .research
          content := "Onderzoek aangevuld door " ++ author : LogRow }).toList ++
      (input.appendResolution.map fun _ =>
        { type := .resolution
          content := "Oplossing aangevuld door " ++ author : LogRow }).toList
  let (data, logs) ← statusData shared issue input author now
  let phases ← phaseLog issue input data author
  return ({ data with
      title := input.title
      severity := severity
      researchMd := input.appendResearch.map fun addition =>
        appendSection issue.researchMd addition author now
      resolutionMd := input.appendResolution.map fun addition =>
        appendSection issue.resolutionMd addition author now },
    texts ++ logs ++ phases)

end Deciding

/-! ## Writing -/

/-- The link to a backlog item of the product, or none. -/
def pbiLink (related : Related) (productId : String) :
    Option (Option String) → Except String (Option (Option String))
  | some (some pbiId) => do
      ensure ((related.pbis.find? (·.1 = pbiId)).map (·.2) = some productId)
        "PBI hoort niet bij het product van dit issue"
      return some (some pbiId)
  | link => return link

/-- The link to an idea of the product, primary or not, or none. -/
def ideaLink (related : Related) (productId : String) :
    Option (Option String) → Except String (Option (Option String))
  | some (some ideaId) => do
      let idea ← require (related.ideas.find? (·.1 = ideaId)) "Idea niet gevonden"
      ensure (idea.2 = productId ∨ (ideaId, productId) ∈ related.ideaProducts)
        "Idea hoort niet bij het product van dit issue"
      return some (some ideaId)
  | link => return link

/-- `issue.update`, with the marks for the mirror. -/
def IssueRow.update (issue : IssueRow) (data : Data) : IssueRow :=
  { issue with
    title := data.title.getD issue.title
    severity := data.severity.getD issue.severity
    researchMd := data.researchMd.or issue.researchMd
    resolutionMd := data.resolutionMd.or issue.resolutionMd
    status := data.status.getD issue.status
    resolution := data.resolution.getD issue.resolution
    closedAt := data.closedAt.getD issue.closedAt
    linkedPbiId := data.linkedPbiId.getD issue.linkedPbiId
    linkedIdeaId := data.linkedIdeaId.getD issue.linkedIdeaId
    forgejoDirty := true
    forgejoSyncSeq := issue.forgejoSyncSeq + 1 }

/-! ## The machine -/

/-- A call that has read the issue. -/
structure Call where
  id : Nat
  input : Input
  username : String
  now : String
  read : IssueRow
  deriving DecidableEq

/-- A change of the status. -/
structure Transition where
  source : IssueStatus
  target : IssueStatus
  resolution : Option IssueResolution
  deriving DecidableEq

/-- A call whose transaction committed, with the change it made to the status. -/
structure Commit where
  input : Input
  transition : Option Transition
  deriving DecidableEq

/-- One issue, and all commits in their order. -/
structure World where
  issue : IssueRow
  logs : List LogRow
  related : Related
  calls : List Call
  commits : List Commit
  deriving DecidableEq

/-- A call reads the issue, or commits; others change what links are checked
against. -/
inductive Step
  | read (id : Nat) (input : Input) (username now : String)
  | commit (id : Nat)
  | changeRelated (related : Related)
  deriving DecidableEq

section Machine

variable (shared : IssueStatusModule)

/-- The transaction of a call. -/
def writeUpdate (world : World) (call : Call) :
    Except String (IssueRow × List LogRow × Option Transition) := do
  let (data, logs) ← decideUpdate shared call.read call.input call.username call.now
  let linkedPbiId ← pbiLink world.related call.read.productId call.input.linkPbiId
  let linkedIdeaId ← ideaLink world.related call.read.productId call.input.linkIdeaId
  let transition := data.status.map fun target =>
    { source := world.issue.status, target := target, resolution := data.resolution.join }
  return (world.issue.update { data with linkedPbiId, linkedIdeaId }, logs, transition)

def execute (world : World) : Step → World
  | .read id input username now =>
      if input.issueId = world.issue.id ∧ id ∉ world.calls.map (·.id) ∧
          (decideUpdate shared world.issue input username now).isOk = true then
        { world with
          calls := world.calls ++ [{ id, input, username, now, read := world.issue }] }
      else world
  | .commit id =>
      match world.calls.find? (·.id = id) with
      | none => world
      | some call =>
          let ended := { world with calls := world.calls.filter (·.id ≠ id) }
          match writeUpdate shared world call with
          | .ok (issue, logs, transition) =>
              { ended with
                issue := issue
                logs := world.logs ++ logs
                commits := world.commits ++ [⟨call.input, transition⟩] }
          | .error _ => ended
  | .changeRelated related => { world with related }

end Machine

/-- An issue without a history. -/
def World.initial (issue : IssueRow) (related : Related) : World where
  issue := issue
  logs := []
  related := related
  calls := []
  commits := []

end Issues
end Scrum4Me
