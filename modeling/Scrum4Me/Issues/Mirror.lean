import Scrum4Me.Issues.Updates

/-!
# Mirroring an issue

`syncIssueToForgejo` renders an issue and writes it to its mirror in a repository,
under a session lock of the issue: labels, the mirror issue itself, its labels, its
number, and last the mark, which a compare-and-swap clears only if the issue was not
changed since it was read.
-/

namespace Scrum4Me
namespace Issues
namespace Mirror

open Foundation

/-! ## Rows -/

/-- `issues`, with the columns that only the mirror reads. -/
structure MirroredRow extends IssueRow where
  code : String
  description : String
  reportedBy : Option String
  occurrenceCount : Nat
  lastSeenAt : String
  createdAt : String
  archived : Bool
  forgejoRepo : Option String
  forgejoNumber : Option Nat
  forgejoError : Option String
  deriving DecidableEq

/-- What is read along with the issue: the codes of its links, and its product. -/
structure Surroundings where
  linkedPbiCode : Option String
  linkedIdeaCode : Option String
  productName : String
  productKind : String
  repoUrl : Option String
  deriving DecidableEq

/-- What one read of the issue gave. -/
structure Snapshot where
  row : MirroredRow
  surroundings : Surroundings
  deriving DecidableEq

/-- `IssueMirrorIssue`. -/
structure MirrorIssue where
  id : String
  code : String
  title : String
  description : String
  researchMd : Option String
  resolutionMd : Option String
  status : IssueStatus
  resolution : Option IssueResolution
  severity : IssueSeverity
  reportedBy : Option String
  occurrenceCount : Nat
  lastSeenAt : String
  createdAt : String
  linkedPbiCode : Option String
  linkedIdeaCode : Option String
  archived : Bool

/-- `IssueMirrorProduct`. -/
structure MirrorProduct where
  name : String
  kind : String

def Snapshot.mirrorIssue (snapshot : Snapshot) : MirrorIssue where
  id := snapshot.row.id
  code := snapshot.row.code
  title := snapshot.row.title
  description := snapshot.row.description
  researchMd := snapshot.row.researchMd
  resolutionMd := snapshot.row.resolutionMd
  status := snapshot.row.status
  resolution := snapshot.row.resolution
  severity := snapshot.row.severity
  reportedBy := snapshot.row.reportedBy
  occurrenceCount := snapshot.row.occurrenceCount
  lastSeenAt := snapshot.row.lastSeenAt
  createdAt := snapshot.row.createdAt
  linkedPbiCode := snapshot.surroundings.linkedPbiCode
  linkedIdeaCode := snapshot.surroundings.linkedIdeaCode
  archived := snapshot.row.archived

def Snapshot.mirrorProduct (snapshot : Snapshot) : MirrorProduct where
  name := snapshot.surroundings.productName
  kind := snapshot.surroundings.productKind

/-- What a `URL` is made of. -/
structure Address where
  hostname : String
  pathname : String

/-- `@shared/issue-forgejo-mirror.js`, which is not part of the repository, with the
base address of the application, the host, and how a `URL` is read. -/
structure Rendering where
  renderIssueTitle : MirrorIssue → MirrorProduct → String
  renderIssueBody : MirrorIssue → MirrorProduct → String → String
  renderIssueLabels : MirrorIssue → MirrorProduct → List String
  /-- Whether the mirror is closed. -/
  renderIssueState : MirrorIssue → Bool
  appBaseUrl : String
  forgejoHost : String
  parseUrl : String → Option Address

/-- The path without the slash before it and the slashes after it, in parts. -/
def Address.parts (address : Address) : List (List Char) :=
  let path :=
    match address.pathname.toList with
    | '/' :: path => path
    | path => path
  (path.reverse.dropWhile (· = '/')).reverse.splitOn '/'

/-- Without `.git` at the end. -/
def withoutGit (repoRaw : List Char) : List Char :=
  if ".git".toList <:+ repoRaw then repoRaw.take (repoRaw.length - 4) else repoRaw

/-- `owner/repo`, if the address is one of the host. -/
def parseForgejoRepoPath (rendering : Rendering) (repoUrl : String) : Option String :=
  match rendering.parseUrl repoUrl with
  | none => none
  | some address =>
      if address.hostname ≠ rendering.forgejoHost then none
      else
        match address.parts with
        | owner :: repoRaw :: _ =>
            if owner = [] ∨ repoRaw = [] then none
            else some (String.ofList (owner ++ '/' :: withoutGit repoRaw))
        | _ => none

/-- A mirror issue in a repository. -/
structure RemoteIssue where
  repo : String
  number : Nat
  title : String
  body : String
  closed : Bool
  labels : List String
  deriving DecidableEq

/-! ## Runs -/

/-- What a run is about to do; every stage but the first carries what was read, and
the repository. -/
inductive Stage
  | reading
  | listingLabels (snapshot : Snapshot) (repoPath : String)
  | creatingLabels (snapshot : Snapshot) (repoPath : String) (missing : List String)
  | searching (snapshot : Snapshot) (repoPath : String)
  | creating (snapshot : Snapshot) (repoPath : String)
  | editing (snapshot : Snapshot) (repoPath : String) (number : Nat)
  | settingLabels (snapshot : Snapshot) (repoPath : String) (number : Nat)
  | storing (snapshot : Snapshot) (repoPath : String) (number : Nat)
  | marking (snapshot : Snapshot)
  deriving DecidableEq

/-- One issue with its mirrors, the run that holds its lock, and all that was read. -/
structure World where
  row : MirroredRow
  surroundings : Surroundings
  /-- Every repository with the labels it has. -/
  labels : List (String × String)
  remotes : List RemoteIssue
  running : Option Stage
  snapshots : List Snapshot
  /-- The log rows of changed repositories. -/
  logs : List String
  deriving DecidableEq

/-- The columns of the issue change, with the marks for the mirror. -/
def MirroredRow.mutated (row changed : MirroredRow) : MirroredRow :=
  { changed with
    forgejoRepo := row.forgejoRepo
    forgejoNumber := row.forgejoNumber
    forgejoError := row.forgejoError
    forgejoDirty := true
    forgejoSyncSeq := row.forgejoSyncSeq + 1 }

section Machine

variable (rendering : Rendering)

def Snapshot.title (snapshot : Snapshot) : String :=
  rendering.renderIssueTitle snapshot.mirrorIssue snapshot.mirrorProduct

def Snapshot.body (snapshot : Snapshot) : String :=
  rendering.renderIssueBody snapshot.mirrorIssue snapshot.mirrorProduct
    rendering.appBaseUrl

def Snapshot.labels (snapshot : Snapshot) : List String :=
  rendering.renderIssueLabels snapshot.mirrorIssue snapshot.mirrorProduct

def Snapshot.closed (snapshot : Snapshot) : Bool :=
  rendering.renderIssueState snapshot.mirrorIssue

/-- The repository that the mirror is in, if it is another one. -/
def Snapshot.movedFrom (snapshot : Snapshot) (repoPath : String) : Option String :=
  snapshot.row.forgejoRepo.filter fun repo => repo ≠ repoPath

/-- The number of the mirror, if it is in this repository. -/
def Snapshot.knownNumber (snapshot : Snapshot) (repoPath : String) : Option Nat :=
  if snapshot.movedFrom repoPath = none then snapshot.row.forgejoNumber else none

/-- The mirror issue of a number. -/
def RemoteIssue.Named (repo : String) (number : Nat) (remote : RemoteIssue) : Prop :=
  remote.repo = repo ∧ remote.number = number

instance (repo : String) (number : Nat) (remote : RemoteIssue) :
    Decidable (remote.Named repo number) :=
  inferInstanceAs (Decidable (_ ∧ _))

namespace World

variable (world : World)

/-- The run ends. -/
def ended : World := { world with running := none }

/-- `writeFailureOn`. -/
def writeFailure (message : String) : World :=
  { world with
    row := { world.row with
      forgejoError := some (String.ofList (message.toList.take 500)) } }

/-- The run ends, and the issue shows its error. -/
def failed (message : String) : World :=
  (world.writeFailure message).ended

def goOn (stage : Stage) : World := { world with running := some stage }

/-- One mirror issue changes. -/
def patch (repo : String) (number : Nat) (change : RemoteIssue → RemoteIssue) : World :=
  { world with
    remotes := updateWhere (fun remote => remote.Named repo number) change
      world.remotes }

/-- A changed repository is logged. -/
def logged (snapshot : Snapshot) (repoPath : String) : World :=
  { world with
    logs := world.logs ++ (snapshot.movedFrom repoPath).toList.map fun repo =>
      "doelrepo gewijzigd van " ++ repo ++ " naar " ++ repoPath ++
        " — nieuw mirror-issue" }

/-- The next statement of the run; a mirror issue that is created gets this number. -/
def advance (number : Nat) : Stage → World
  | .reading =>
      let snapshot : Snapshot := ⟨world.row, world.surroundings⟩
      let read := { world with snapshots := world.snapshots ++ [snapshot] }
      world.surroundings.repoUrl.elim read.ended fun repoUrl =>
        (parseForgejoRepoPath rendering repoUrl).elim
          (read.failed ("repo_url is geen Forgejo-URL: " ++ repoUrl)) fun repoPath =>
            read.goOn (.listingLabels snapshot repoPath)
  | .listingLabels snapshot repoPath =>
      world.goOn (.creatingLabels snapshot repoPath
        ((snapshot.labels rendering).filter fun name =>
          ∀ label ∈ world.labels, label ≠ (repoPath, name)))
  | .creatingLabels snapshot repoPath (name :: missing) =>
      World.goOn { world with labels := world.labels ++ [(repoPath, name)] }
        (.creatingLabels snapshot repoPath missing)
  | .creatingLabels snapshot repoPath [] =>
      (snapshot.knownNumber repoPath).elim
        ((world.logged snapshot repoPath).goOn (.searching snapshot repoPath)) fun number =>
          (world.logged snapshot repoPath).goOn (.editing snapshot repoPath number)
  | .searching snapshot repoPath =>
      -- By the marker of the issue, which every mirror of it carries.
      match world.remotes.find? (·.repo = repoPath) with
      | none => world.goOn (.creating snapshot repoPath)
      | some remote => world.goOn (.editing snapshot repoPath remote.number)
  | .creating snapshot repoPath =>
      -- The host numbers its issues from one.
      if 0 < number ∧ ∀ remote ∈ world.remotes, ¬ remote.Named repoPath number then
        World.goOn
          { world with
            remotes := world.remotes ++
              [{ repo := repoPath
                 number := number
                 title := snapshot.title rendering
                 body := snapshot.body rendering
                 closed := snapshot.closed rendering
                 labels := [] }] }
          (.settingLabels snapshot repoPath number)
      else world
  | .editing snapshot repoPath number =>
      if ∃ remote ∈ world.remotes, remote.Named repoPath number then
        World.goOn
          (world.patch repoPath number fun remote =>
            { remote with
              title := snapshot.title rendering
              body := snapshot.body rendering
              closed := snapshot.closed rendering })
          (.settingLabels snapshot repoPath number)
      else world.failed "Forgejo 404"
  | .settingLabels snapshot repoPath number =>
      World.goOn
        (world.patch repoPath number fun remote =>
          { remote with labels := snapshot.labels rendering })
        (.storing snapshot repoPath number)
  | .storing snapshot repoPath number =>
      World.goOn
        { world with
          row := { world.row with
            forgejoRepo := some repoPath
            forgejoNumber := some number } }
        (.marking snapshot)
  | .marking snapshot =>
      if world.row.forgejoSyncSeq = snapshot.row.forgejoSyncSeq then
        World.ended
          { world with
            row := { world.row with forgejoDirty := false, forgejoError := none } }
      else world.ended

end World

/-- The issue, or what it is read with, changes; a run takes the lock, executes a
statement, or ends: with an error that is stored, or without. A statement whose answer
is lost is one that is executed before the run ends. A run that could not even connect
stores its error next to the one that holds the lock. -/
inductive Step
  | mutate (changed : MirroredRow)
  | changeSurroundings (surroundings : Surroundings)
  | lock
  | advance (number : Nat)
  | fail (message : Option String)
  | writeFailure (message : String)
  deriving DecidableEq

def execute (world : World) : Step → World
  | .mutate changed => { world with row := world.row.mutated changed }
  | .changeSurroundings surroundings => { world with surroundings }
  | .lock => if world.running = none then world.goOn .reading else world
  | .advance number =>
      match world.running with
      | none => world
      | some stage => world.advance rendering number stage
  | .fail message =>
      match message with
      | none => world.ended
      | some message => if world.running = none then world else world.failed message
  | .writeFailure message => world.writeFailure message

end Machine

/-- An issue that was just created. -/
def World.initial (row : MirroredRow) (surroundings : Surroundings) : World where
  row := { row with
    forgejoRepo := none, forgejoNumber := none, forgejoDirty := true, forgejoSyncSeq := 0 }
  surroundings := surroundings
  labels := []
  remotes := []
  running := none
  snapshots := []
  logs := []

end Mirror
end Issues
end Scrum4Me
