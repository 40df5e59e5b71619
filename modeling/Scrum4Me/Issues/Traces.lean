import Scrum4Me.Foundation.Pieces
import Scrum4Me.Issues.Updates

/-!
# Nothing written to an issue is lost

What a call writes is computed from the issue that it read. While every commit finds
the texts that it appends to, and the status that it changes, as they were read, all
additions stay, the status moves along allowed transitions, and its log tells them.
-/

namespace Scrum4Me
namespace Issues

open Foundation

/-! ## The condition -/

/-- A commit finds what it writes over as its call read it. -/
def Step.Current (shared : IssueStatusModule) (world : World) : Step → Prop
  | commit id =>
      ∀ call ∈ world.calls, call.id = id → (writeUpdate shared world call).isOk = true →
        (call.input.appendResearch ≠ none →
            world.issue.researchMd = call.read.researchMd) ∧
          (call.input.appendResolution ≠ none →
            world.issue.resolutionMd = call.read.resolutionMd) ∧
            (call.input.status ≠ none → world.issue.status = call.read.status)
  | _ => True

instance (shared : IssueStatusModule) (world : World) (step : Step) :
    Decidable (step.Current shared world) := by
  apply @Step.casesOn (fun step => Decidable (step.Current shared world)) step <;>
    intros <;> dsimp only [Step.Current] <;> infer_instance

/-! ## What is promised -/

/-- The transitions lead from one status to the other. -/
def Path : IssueStatus → List Transition → IssueStatus → Prop
  | first, [], last => first = last
  | first, transition :: rest, last =>
      transition.source = first ∧ Path transition.target rest last

/-- The log text of a transition. -/
def Transition.text (transition : Transition) : String :=
  transition.source.text ++ " → " ++ transition.target.text ++
    transition.resolution.elim "" fun resolution => " (" ++ resolution.text ++ ")"

/-- Closed, exactly with a resolution and a time of closing. -/
def IssueRow.Settled (issue : IssueRow) : Prop :=
  issue.status = .closed ↔ issue.resolution ≠ none ∧ issue.closedAt ≠ none

instance (issue : IssueRow) : Decidable issue.Settled :=
  inferInstanceAs (Decidable (_ ↔ _))

namespace World

variable (world : World)

/-- The texts that the commits added to the research, in their order. -/
def researched : List (List Char) :=
  world.commits.filterMap fun commit => commit.input.appendResearch.map String.toList

/-- The texts that the commits added to the resolution, in their order. -/
def resolved : List (List Char) :=
  world.commits.filterMap fun commit => commit.input.appendResolution.map String.toList

/-- The changes of the status, in the order of their commits. -/
def transitions : List Transition := world.commits.filterMap (·.transition)

/-- Nothing that was written is lost. -/
structure Kept (shared : IssueStatusModule) (start : IssueStatus) : Prop where
  research : InOrder world.researched (world.issue.researchMd.getD "").toList
  resolution : InOrder world.resolved (world.issue.resolutionMd.getD "").toList
  path : Path start world.transitions world.issue.status
  allowed : ∀ transition ∈ world.transitions,
    shared.canTransitionIssue transition.source transition.target = true
  logged : (world.logs.filter (·.type = .statusChange)).map (·.content) =
    world.transitions.map Transition.text
  settled : world.issue.Settled

end World

variable {shared : IssueStatusModule} {world : World} {start : IssueStatus}

/-! ## What a call decides -/

/-- An addition stands at the end of the text that it is appended to. -/
theorem appendSection_eq (existing : Option String) (addition author now : String) :
    ∃ between, (appendSection existing addition author now).toList =
      (existing.getD "").toList ++ (between ++ addition.toList ++ []) := by
  cases existing with
  | none => exact ⟨(separator now author).toList, by simp [appendSection]⟩
  | some text =>
    by_cases empty : text = ""
    · exact ⟨(separator now author).toList, by simp [appendSection, empty]⟩
    · exact ⟨"\n\n".toList ++ (separator now author).toList, by
        simp [appendSection, empty]⟩

/-- How the status is decided, one case for each kind of transition. -/
inductive StatusDecided (shared : IssueStatusModule) (issue : IssueRow) (input : Input) :
    Data → List LogRow → Prop
  | unchanged (absent : input.status = none) : StatusDecided shared issue input {} []
  | closed (resolution : IssueResolution) (now : String) (given : input.status ≠ none)
      (allowed : shared.canTransitionIssue issue.status .closed = true) :
      StatusDecided shared issue input
        { status := some .closed
          resolution := some (some resolution)
          closedAt := some (some now) }
        [{ type := .statusChange
           content := issue.status.text ++ " → CLOSED (" ++ resolution.text ++ ")" }]
  | reopened (target : IssueStatus) (content : String) (given : input.status ≠ none)
      (allowed : shared.canTransitionIssue issue.status target = true)
      (was : issue.status = .closed) (apart : target ≠ .closed) :
      StatusDecided shared issue input
        { status := some target, resolution := some none, closedAt := some none }
        [{ type := .statusChange, content := "CLOSED → " ++ target.text },
          { type := .reopened, content := content }]
  | moved (target : IssueStatus) (given : input.status ≠ none)
      (allowed : shared.canTransitionIssue issue.status target = true)
      (was : issue.status ≠ .closed) (apart : target ≠ .closed) :
      StatusDecided shared issue input { status := some target }
        [{ type := .statusChange, content := issue.status.text ++ " → " ++ target.text }]

variable {logs : List LogRow}

theorem statusData_ok {issue : IssueRow} {input : Input} {author now : String} {data : Data}
    (decided : statusData shared issue input author now = .ok (data, logs)) :
    StatusDecided shared issue input data logs := by
  unfold statusData at decided
  split at decided
  · rename_i absent
    simp only [bind_eq_ok, pure_eq_ok, Prod.mk.injEq] at decided
    obtain ⟨-, -, rfl, rfl⟩ := decided
    exact .unchanged absent
  · rename_i status given
    have given : input.status ≠ none := given ▸ Option.some_ne_none _
    simp only [bind_eq_ok, require_eq_ok, ensure_eq_ok] at decided
    obtain ⟨target, -, -, allowed, decided⟩ := decided
    split at decided
    · rename_i closing
      obtain rfl := closing
      simp only [bind_eq_ok, pure_eq_ok, Prod.mk.injEq] at decided
      obtain ⟨resolution, -, rfl, rfl⟩ := decided
      exact .closed resolution now given allowed
    · rename_i apart
      split at decided
      · rename_i was
        obtain ⟨rfl, rfl⟩ := Prod.mk.inj (Except.ok.inj decided)
        exact .reopened target _ given allowed was apart
      · rename_i was
        obtain ⟨rfl, rfl⟩ := Prod.mk.inj (Except.ok.inj decided)
        exact .moved target given allowed was apart

/-- The columns that a call writes, and the log rows of its status. -/
theorem decideUpdate_ok {issue : IssueRow} {input : Input} {username now : String} {data : Data}
    (decided : decideUpdate shared issue input username now = .ok (data, logs)) :
    ∃ status statusLogs, StatusDecided shared issue input status statusLogs ∧
      data.status = status.status ∧ data.resolution = status.resolution ∧
        data.closedAt = status.closedAt ∧ logs.filter (·.type = .statusChange) =
            statusLogs.filter (·.type = .statusChange) ∧
          (data.researchMd = input.appendResearch.map fun addition =>
            appendSection issue.researchMd addition (input.authoredBy.getD username) now) ∧
            data.resolutionMd = input.appendResolution.map fun addition =>
              appendSection issue.resolutionMd addition (input.authoredBy.getD username) now := by
  simp only [decideUpdate, bind_eq_ok] at decided
  obtain ⟨severity, -, ⟨status, statusLogs⟩, made, phases, phased, decided⟩ := decided
  obtain ⟨rfl, rfl⟩ := Prod.mk.inj (Except.ok.inj decided)
  refine ⟨status, statusLogs, statusData_ok made, rfl, rfl, rfl, ?_, rfl, rfl⟩
  have quiet : phases.filter (·.type = .statusChange) = [] := by
    unfold phaseLog at phased
    split at phased
    · obtain rfl := Except.ok.inj phased
      rfl
    · simp only [bind_eq_ok, pure_eq_ok] at phased
      obtain ⟨-, -, -, -, rfl⟩ := phased
      rfl
  rw [List.filter_append, List.filter_append, quiet, List.append_nil]
  cases input.appendResearch <;> cases input.appendResolution <;> rfl

/-- What a commit leaves behind that finds what it writes over as it was read. -/
structure Written
    (shared : IssueStatusModule) (world : World) (call : Call) (issue : IssueRow)
    (logs : List LogRow) (transition : Option Transition) :
    Prop where
  research : ∃ addition, (issue.researchMd.getD "").toList =
    (world.issue.researchMd.getD "").toList ++ addition ∧
      InOrder (call.input.appendResearch.map String.toList).toList addition
  resolution : ∃ addition, (issue.resolutionMd.getD "").toList =
    (world.issue.resolutionMd.getD "").toList ++ addition ∧
      InOrder (call.input.appendResolution.map String.toList).toList addition
  path : Path world.issue.status transition.toList issue.status
  allowed : ∀ change ∈ transition,
    shared.canTransitionIssue change.source change.target = true
  logged : (logs.filter (·.type = .statusChange)).map (·.content) =
    transition.toList.map Transition.text
  settled : world.issue.Settled → issue.Settled

/-- The log text of a closing. -/
theorem closing_text
    {current read : IssueStatus} (same : current = read) (resolution : IssueResolution) :
    read.text ++ " → CLOSED (" ++ resolution.text ++ ")" =
      ({ source := current, target := .closed, resolution := some resolution } :
        Transition).text := by
  have spelled : " → CLOSED (" = " → " ++ "CLOSED" ++ " (" := by decide
  rw [same, spelled]
  simp only [Transition.text, IssueStatus.text, Option.elim, String.append_assoc]

/-- The log text of a reopening. -/
theorem reopening_text (target : IssueStatus) :
    "CLOSED → " ++ target.text = ({ source := .closed, target := target, resolution := none } :
        Transition).text := by
  have spelled : "CLOSED → " = "CLOSED" ++ " → " := by decide
  rw [spelled]
  simp [Transition.text, IssueStatus.text, String.append_assoc]

/-- An addition is appended to what is there, if it is what was read. -/
theorem exists_addition
    {current read : Option String} (append : Option String) (author now : String)
    (same : append ≠ none → current = read) :
    ∃ addition, ((((append.map fun addition => appendSection read addition author
          now)).or current).getD "").toList = (current.getD "").toList ++ addition ∧
      InOrder (append.map String.toList).toList addition := by
  cases append with
  | none => exact ⟨[], by simp⟩
  | some text =>
    obtain rfl := same (Option.some_ne_none _)
    obtain ⟨between, appended⟩ := appendSection_eq current text author now
    exact ⟨_, appended, InOrder.singleton between text.toList []⟩

theorem writeUpdate_ok {call : Call} {issue : IssueRow} {transition : Option Transition}
    (written : writeUpdate shared world call = .ok (issue, logs, transition))
    (research : call.input.appendResearch ≠ none → world.issue.researchMd = call.read.researchMd)
    (resolution : call.input.appendResolution ≠ none →
      world.issue.resolutionMd = call.read.resolutionMd)
    (status : call.input.status ≠ none → world.issue.status = call.read.status) :
    Written shared world call issue logs transition := by
  simp only [writeUpdate, bind_eq_ok, pure_eq_ok, Prod.mk.injEq] at written
  obtain ⟨⟨data, made⟩, decided, pbi, -, idea, -, rfl, rfl, rfl⟩ := written
  obtain ⟨columns, statusLogs, shape, statusIs, resolutionIs, closedIs, sameLogs,
    researchIs, resolvedIs⟩ := decideUpdate_ok decided
  have researched := exists_addition call.input.appendResearch
    (call.input.authoredBy.getD call.username) call.now research
  have resolved := exists_addition call.input.appendResolution
    (call.input.authoredBy.getD call.username) call.now resolution
  rw [← researchIs] at researched
  rw [← resolvedIs] at resolved
  refine ⟨researched, resolved, ?_, ?_, ?_, ?_⟩
  · simp only [IssueRow.update, statusIs]
    cases shape with
    | unchanged => rfl
    | _ => exact ⟨rfl, rfl⟩
  · simp only [statusIs, resolutionIs]
    cases shape with
    | unchanged => simp
    | closed _ _ given allowed => simpa [status given] using allowed
    | reopened _ _ given allowed => simpa [status given] using allowed
    | moved _ given allowed => simpa [status given] using allowed
  · rw [sameLogs]
    simp only [statusIs, resolutionIs]
    cases shape with
    | unchanged => rfl
    | closed resolution _ given =>
      exact congrArg (fun text => [text]) (closing_text (status given) resolution)
    | reopened target _ given _ was =>
      rw [status given, was]
      exact congrArg (fun text => [text]) (reopening_text target)
    | moved _ given =>
      rw [status given]
      simp [Transition.text]
  · intro settled
    simp only [IssueRow.Settled, IssueRow.update, statusIs, resolutionIs, closedIs]
      at settled ⊢
    cases shape with
    | unchanged => exact settled
    | closed => simp
    | reopened _ _ _ _ _ apart => simp [apart]
    | moved _ given _ was apart =>
      rw [status given] at settled
      simpa [apart, was] using settled

/-! ## One step and all steps -/

theorem Path.append {first middle last : IssueStatus} {transitions more : List Transition}
    (path : Path first transitions middle) (next : Path middle more last) :
    Path first (transitions ++ more) last := by
  induction transitions generalizing first with
  | nil =>
    obtain rfl := path
    exact next
  | cons transition rest ih => exact ⟨path.1, ih path.2⟩

theorem kept_execute
    (kept : world.Kept shared start) (step : Step) (current : step.Current shared world) :
    (execute shared world step).Kept shared start := by
  cases step with
  | read id input username now =>
    simp only [execute]
    split
    · exact { kept with }
    · exact kept
  | changeRelated related => exact { kept with }
  | commit id =>
    simp only [execute]
    split
    · exact kept
    · rename_i call found
      have named : call.id = id := by simpa using List.find?_some found
      have fresh := current call (List.mem_of_find?_eq_some found) named
      split
      · rename_i issue logs transition written
        obtain ⟨research, resolution, status⟩ := fresh (by rw [written]; rfl)
        have now := writeUpdate_ok written research resolution status
        obtain ⟨addition, researched, added⟩ := now.research
        obtain ⟨proposal, resolved, proposed⟩ := now.resolution
        let commit : Commit := ⟨call.input, transition⟩
        have transitions : (world.commits ++ [commit]).filterMap
            (·.transition) = world.transitions ++ transition.toList :=
          filterMap_snoc _ _ _
        exact
          { research := by
              have pieces : (world.commits ++ [commit]).filterMap
                  (fun commit => commit.input.appendResearch.map String.toList) =
                    world.researched ++ (call.input.appendResearch.map String.toList).toList :=
                filterMap_snoc _ _ _
              unfold World.researched
              rw [pieces, researched]
              exact kept.research.append added
            resolution := by
              have pieces : (world.commits ++ [commit]).filterMap
                  (fun commit => commit.input.appendResolution.map String.toList) =
                    world.resolved ++ (call.input.appendResolution.map String.toList).toList :=
                filterMap_snoc _ _ _
              unfold World.resolved
              rw [pieces, resolved]
              exact kept.resolution.append proposed
            path := by
              unfold World.transitions
              rw [transitions]
              exact kept.path.append now.path
            allowed := by
              unfold World.transitions
              rw [transitions]
              exact List.forall_mem_append.mpr ⟨kept.allowed, by
                intro change member
                exact now.allowed change (Option.mem_toList.mp member)⟩
            logged := by
              unfold World.transitions
              rw [transitions, List.filter_append, List.map_append, List.map_append,
                kept.logged, now.logged]
            settled := now.settled kept.settled }
      · exact { kept with }

/-- From an issue that is closed exactly with a resolution and a time, while every
commit finds what it writes over as its call read it. -/
theorem updates_kept (shared : IssueStatusModule) (issue : IssueRow) (related : Related)
    (settled : issue.Settled) (steps : List Step)
    (current : EveryStep (execute shared) (fun world step => step.Current shared world)
      (World.initial issue related) steps) :
    (run (execute shared) (World.initial issue related) steps).Kept shared
      issue.status :=
  @run_invariant _ _ (execute shared) (fun world step => step.Current shared world)
    (fun world => world.Kept shared issue.status)
    (fun _ step kept current => kept_execute kept step current) _ steps
    { research := trivial
      resolution := trivial
      path := rfl
      allowed := List.forall_mem_nil _
      logged := rfl
      settled := settled } current

/-! ## Runs -/

namespace UpdateRuns

/-- The statuses in their order, and closed issues reopen to investigating. -/
def rules : IssueStatusModule where
  canTransitionIssue source target :=
    match source, target with
    | .new, .investigating => true
    | .investigating, .planned => true
    | .closed, .investigating => true
    | source, .closed => source ≠ .closed
    | _, _ => false
  issueStatusFromApi text :=
    if text = "investigating" then some .investigating
    else if text = "planned" then some .planned
    else if text = "closed" then some .closed
    else none
  issueSeverityFromApi _ := none
  issueResolutionFromApi text := if text = "fixed" then some .fixed else none
  issueResolutionApiValues := ["fixed"]

def issue : IssueRow where
  id := "issue"
  productId := "product"
  title := "Title"
  researchMd := none
  resolutionMd := none
  status := .new
  resolution := none
  closedAt := none
  severity := .s3Major
  linkedPbiId := none
  linkedIdeaId := none
  forgejoDirty := true
  forgejoSyncSeq := 0

def related : Related where
  pbis := []
  ideas := []
  ideaProducts := []

def research (text : String) : Input :=
  { issueId := "issue", appendResearch := some text }

def investigate : Input := { issueId := "issue", status := some "investigating" }

def close : Input :=
  { issueId := "issue", status := some "closed", resolution := some "fixed" }

def fresh : World := World.initial issue related

/-- One call after the other. -/
def oneByOne : List Step :=
  [.read 0 (research "first") "agent" "1", .commit 0,
    .read 1 { research "second" with status := some "investigating" } "agent" "2",
    .commit 1, .read 2 close "agent" "3", .commit 2]

/-- Two calls read the issue before either of them writes. -/
def together (first second : Input) : List Step :=
  [.read 0 first "agent" "1", .read 1 second "agent" "2", .commit 0, .commit 1]

end UpdateRuns

open UpdateRuns in
theorem updates_kept_one_by_one :
    (run (execute rules) fresh oneByOne).Kept rules .new ∧
      (run (execute rules) fresh oneByOne).issue.status = .closed :=
  ⟨updates_kept rules issue related (by decide) oneByOne (by decide +kernel),
    by decide +kernel⟩

open UpdateRuns in
/-- The second of two calls overwrites the addition of the first; and a call that read
an open issue reopens a closed one, which keeps its resolution. -/
theorem addition_lost :
    (¬ (run (execute rules) fresh (together (research "first")
        (research "second"))).Kept rules .new ∧
      (run (execute rules) fresh (together (research "first")
        (research "second"))).commits.length = 2) ∧
      ¬ (run (execute rules) fresh (together close investigate)).issue.Settled ∧
        (run (execute rules) fresh (together close investigate)).commits.length = 2 := by
  refine ⟨⟨fun kept => ?_, by decide +kernel⟩, by decide +kernel, by decide +kernel⟩
  have additions : (run (execute rules) fresh (together (research "first")
      (research "second"))).researched = ["first".toList, "second".toList] := by
    decide +kernel
  have inOrder := kept.research
  rw [additions] at inOrder
  exact absurd inOrder.isInfix (by decide +kernel)

end Issues
end Scrum4Me
