import Scrum4Me.Foundation.Execution
import Scrum4Me.Foundation.Table
import Scrum4Me.Reviews.Rounds

/-!
# The review loops

A maker writes a document, a review judges it, and the verdict ends the loop or
starts the next maker. `update_idea_plan_md` and `update_idea_spec_md` dispatch
the review after their write; `submit_review` applies the verdict. Each reads
outside its transaction first. The transaction itself locks the row of the idea,
and until it ends no other writes that row or inserts a job of the idea; rows of
jobs may still change between its statements.
-/

namespace Scrum4Me
namespace Reviews

open Foundation Jobs

/-! ## Tables -/

/-- `IdeaStatus`. -/
inductive IdeaStatus
  | draft | grilling | grillFailed | grilled | specDrafting | specReviewing
  | specFailed | planning | planFailed | planReady | reviewingPlan
  | planReviewFailed | planReviewed | planned
  deriving DecidableEq

/-- A row of `claude_jobs` that belongs to an idea. -/
structure LoopJob where
  id : String
  userId : String
  productId : String
  ideaId : IdeaId
  kind : JobKind
  status : JobStatus
  source : JobSource
  runtime : AgentRuntime := .claude
  claimedByTokenId : Option String := none
  createdByJobId : Option String := none
  orchestrationKey : Option String := none
  docId : Option String := none
  docRevisionId : Option String := none
  summary : Option String := none
  deriving DecidableEq

/-- `Math.max(parseLoopRound(job.orchestration_key), 1)`, and so also
`parseLoopRound(job.orchestration_key) || 1`. -/
def LoopJob.round (job : LoopJob) : Nat :=
  max (parseLoopRound job.orchestrationKey) 1

/-- `ideas`. -/
structure IdeaRow where
  id : IdeaId
  productId : String
  status : IdeaStatus
  specDocId : Option String := none
  planReviewLog : Option PlanReviewLog := none
  reviewedAt : Option Moment := none
  deriving DecidableEq

/-- `review_logs`. -/
structure ReviewLogRow where
  reviewJobId : String
  kind : JobKind
  productId : String
  ideaId : IdeaId
  docId : Option String
  docRevisionId : Option String
  verdict : Verdict
  findings : List Finding
  summary : String
  deriving DecidableEq

/-- `IdeaLogType`. -/
inductive IdeaLogType
  | planReviewResult | jobEvent | planResult
  deriving DecidableEq

/-- `idea_logs`. -/
structure IdeaLogRow where
  ideaId : IdeaId
  type : IdeaLogType
  content : String
  jobId : Option String := none
  round : Option Nat := none
  deriving DecidableEq

/-- `claude_questions`. -/
structure QuestionRow where
  ideaId : IdeaId
  productId : String
  askedBy : String
  question : String
  deriving DecidableEq

/-! ## The kinds of a loop -/

def Loop.makers : Loop → List JobKind
  | .plan => [.ideaMakePlan]
  | .spec => [.ideaMakeSpec, .ideaReviseSpec]

def Loop.reviewer : Loop → JobKind
  | .plan => .ideaReviewPlan
  | .spec => .specReview

/-- `LOOP_KINDS` and `SPEC_LOOP_KINDS`. -/
def Loop.kinds (loop : Loop) : List JobKind := loop.makers ++ [loop.reviewer]

/-- The status of an idea whose document waits for its review. -/
def Loop.reviewing : Loop → IdeaStatus
  | .plan => .reviewingPlan
  | .spec => .specReviewing

/-- The loop that a review closes a round of. -/
def reviewLoop? : JobKind → Option Loop
  | .ideaReviewPlan => some .plan
  | .specReview => some .spec
  | _ => none

/-- A job of the loop that is `QUEUED`, `CLAIMED` or `RUNNING`, other than those
excluded; `null` excludes none. -/
def findActive (loop : Loop) (jobs : List LoopJob) (ideaId : IdeaId)
    (excludeJobIds : List (Option String)) :
    Option LoopJob :=
  jobs.find? fun job =>
    job.ideaId = ideaId ∧ job.kind ∈ loop.kinds ∧ job.status.Active ∧
      some job.id ∉ excludeJobIds

def findActiveLoopJob :
    List LoopJob → IdeaId → List (Option String) → Option LoopJob :=
  findActive .plan

def findActiveSpecLoopJob :
    List LoopJob → IdeaId → List (Option String) → Option LoopJob :=
  findActive .spec

/-- The newest maker of the idea that a worker holds. -/
def newestMaker (loop : Loop) (jobs : List LoopJob) (ideaId : IdeaId) :
    Option LoopJob :=
  (jobs.filter fun job =>
    job.ideaId = ideaId ∧ job.kind ∈ loop.makers ∧ job.status.Held).getLast?

/-! ## Calls -/

/-- A call of `update_idea_plan_md` or `update_idea_spec_md`. `writer` is the job
for which a worker makes it, which the call does not know. -/
structure Write where
  loop : Loop
  ideaId : IdeaId
  docId : String
  revisionId : String
  /-- `idea.product?.auto_plan_review ?? false`. -/
  autoPlanReview : Bool
  /-- What the write leaves in the log of the idea. -/
  content : String
  writer : Option String
  deriving DecidableEq

/-- The dispatch of a review, from the read of the maker on. -/
structure Dispatch where
  loop : Loop
  maker : LoopJob
  docId : Option String
  docRevisionId : String
  writer : Option String
  deriving DecidableEq

/-- The input of `submit_review`, and the token of its caller. -/
structure Submission where
  jobId : String
  verdict : Verdict
  findings : List Finding
  summary : String
  tokenId : String
  deriving DecidableEq

/-- A call of `submit_review`, from its first read on. -/
structure Review where
  submission : Submission
  loop : Loop
  job : LoopJob
  planReviewLog : Option PlanReviewLog
  /-- `job.product?.auto_plan_review`. -/
  autoPlanReview : Bool
  now : Moment
  deriving DecidableEq

/-- `VerdictOutcome`. -/
inductive Outcome
  | alreadyProcessed | revision | manualStop | approved | rejected | stale
  | planStarted | maxRounds
  deriving DecidableEq

/-- A call of `dispatchIdeaJob` that passed its checks. -/
structure Start where
  kind : JobKind
  ideaId : IdeaId
  userId : String
  productId : String
  deriving DecidableEq

/-- A call in flight, by what it does next. -/
inductive Call
  | starting (start : Start)
  | written (write : Write)
  | dispatching (dispatch : Dispatch)
  /-- The idea is locked and no other job of the loop was active. -/
  | granted (dispatch : Dispatch)
  | reviewing (review : Review)
  /-- The idea is locked, and the review was active and without a verdict. -/
  | judging (review : Review)
  | searched (review : Review) (active : Option LoopJob)
  /-- The transaction has ended; the summary of the job is left to write. -/
  | landed (review : Review) (outcome : Outcome)
  deriving DecidableEq

/-- The idea whose row the transaction of the call has locked. -/
def Call.locks : Call → Option IdeaId
  | .granted dispatch => some dispatch.maker.ideaId
  | .judging review => some review.job.ideaId
  | .searched review _ => some review.job.ideaId
  | _ => none

/-- What a call has answered. -/
inductive Answer
  | wrote (writer : Option String) (reviewDispatched : Bool)
  | verdict (jobId : String) (outcome : Outcome)
  deriving DecidableEq

/-! ## What a verdict does -/

def Review.round (review : Review) : Nat := review.job.round

/-- `job.runtime === 'CODEX' ? 'codex' : 'claude'`. -/
def Review.model (review : Review) : String :=
  if review.job.runtime = .codex then "codex" else "claude"

def Review.roundInput (review : Review) : RoundInput where
  round := review.round
  verdict := review.submission.verdict
  model := review.model
  findings := review.submission.findings
  summary := review.submission.summary
  timestamp := review.now

/-- The row of `review_logs`. -/
def Review.logRow (review : Review) : ReviewLogRow where
  reviewJobId := review.job.id
  kind := review.job.kind
  productId := review.job.productId
  ideaId := review.job.ideaId
  docId := review.job.docId
  docRevisionId := review.job.docRevisionId
  verdict := review.submission.verdict
  findings := review.submission.findings
  summary := review.submission.summary

/-- The job that a verdict starts. -/
structure FollowUp where
  kind : JobKind
  loop : Loop
  round : Nat
  summary : String
  deriving DecidableEq

/-- What the transaction of a verdict writes beside the row of `review_logs`. -/
structure Landing where
  outcome : Outcome
  status : Option IdeaStatus := none
  followUp : Option FollowUp := none
  question : Option String := none
  content : String
  deriving DecidableEq

/-- `text.slice(0, length)`. -/
def slice (text : String) (length : Nat) : String :=
  String.ofList (text.toList.take length)

/-- `Review r1: CHANGES_REQUESTED (2 findings) — `. -/
def Review.heading (review : Review) (title : String) : String :=
  title ++ " r" ++ toString review.round ++ ": CHANGES_REQUESTED (" ++
    toString review.submission.findings.length ++ " findings) — "

/-- `applyIdeaReviewVerdict`, after its row of `review_logs`. -/
def applyIdeaReviewVerdict (review : Review) (active : Option LoopJob) :
    Landing :=
  let round := review.round
  let summary := slice review.submission.summary 400
  let findings := toString review.submission.findings.length
  match review.submission.verdict with
  | .changesRequested =>
      if review.autoPlanReview then
        match active with
        | some other =>
            { outcome := .alreadyProcessed
              content := "Review r" ++ toString round ++
                ": CHANGES_REQUESTED — bestaande loop-job " ++ other.kind.text ++
                " actief, geen nieuwe revisie gequeued" }
        | none =>
            if MAX_LOOP_ROUNDS ≤ round then
              { outcome := .maxRounds
                status := some .planReviewFailed
                question := some ("Plan-review convergeert niet (r" ++
                  toString round ++ ", nog " ++ findings ++ " findings): " ++
                  summary ++ " — hoe verder? (plan handmatig bijwerken / " ++
                  "opnieuw plannen / afbreken)")
                content := review.heading "Review" ++ "max rondes (" ++
                  toString MAX_LOOP_ROUNDS ++
                  ") bereikt, escalatie naar gebruiker" }
            else
              { outcome := .revision
                status := some .planning
                followUp := some
                  { kind := .ideaMakePlan
                    loop := .plan
                    round := round + 1
                    summary := "Plan-revisie r" ++ toString (round + 1) ++
                      " na review r" ++ toString round }
                content := review.heading "Review" ++ "revisie r" ++
                  toString (round + 1) ++ " queued" }
      else
        { outcome := .manualStop
          status := some .planReviewFailed
          content := review.heading "Review" ++
            "handmatige flow, geen auto-revisie" }
  | .approved =>
      { outcome := .approved
        status := some .planReviewed
        content := "Review r" ++ toString round ++ ": APPROVED (GO)" }
  | .rejected =>
      { outcome := .rejected
        status := some .planReviewFailed
        question := some ("Codex wijst het plan fundamenteel af (r" ++
          toString round ++ "): " ++ summary ++
          " — hoe verder? (opnieuw plannen / plan handmatig bijwerken / afbreken)")
        content := "Review r" ++ toString round ++
          ": REJECTED — escalatie naar gebruiker" }

/-- `applySpecReviewVerdict`, after its row of `review_logs`. -/
def applySpecReviewVerdict (review : Review) (active : Option LoopJob) :
    Landing :=
  let round := review.round
  let summary := slice review.submission.summary 400
  let findings := toString review.submission.findings.length
  match review.submission.verdict with
  | .approved =>
      { outcome := .planStarted
        status := some .planning
        followUp := some
          { kind := .ideaMakePlan
            loop := .plan
            round := 1
            summary := "Plan-fase gestart na spec-approval (M23)" }
        content := "Spec-review r" ++ toString round ++
          ": APPROVED — IDEA_MAKE_PLAN queued" }
  | .changesRequested =>
      match active with
      | some other =>
          { outcome := .alreadyProcessed
            content := "Spec-review r" ++ toString round ++
              ": CHANGES_REQUESTED — bestaande spec-loop-job " ++ other.kind.text ++
              " actief, geen nieuwe revisie gequeued" }
      | none =>
          if MAX_LOOP_ROUNDS ≤ round then
            { outcome := .maxRounds
              status := some .specFailed
              question := some ("Spec-review convergeert niet (r" ++
                toString round ++ ", nog " ++ findings ++ " findings): " ++
                summary ++
                " — hoe verder? (spec handmatig bijwerken / opnieuw / afbreken)")
              content := review.heading "Spec-review" ++ "max rondes (" ++
                toString MAX_LOOP_ROUNDS ++
                ") bereikt, escalatie naar gebruiker" }
          else
            { outcome := .revision
              status := some .specDrafting
              followUp := some
                { kind := .ideaReviseSpec
                  loop := .spec
                  round := round + 1
                  summary := "Spec-revisie r" ++ toString (round + 1) ++
                    " na CHANGES_REQUESTED" }
              content := review.heading "Spec-review" ++ "spec-revisie r" ++
                toString (round + 1) ++ " queued" }
  | .rejected =>
      { outcome := .rejected
        status := some .specFailed
        question := some ("Codex wijst de spec fundamenteel af (r" ++
          toString round ++ "): " ++ summary ++
          " — hoe verder? (spec opnieuw maken / terug naar GRILLED / afbreken)")
        content := "Spec-review r" ++ toString round ++
          ": REJECTED — escalatie naar gebruiker" }

def Review.landing (review : Review) (active : Option LoopJob) : Landing :=
  match review.loop with
  | .plan => applyIdeaReviewVerdict review active
  | .spec => applySpecReviewVerdict review active

/-- The row of the follow-up. -/
def Review.followUpJob (review : Review) (jobId : String) (followUp : FollowUp) :
    LoopJob where
  id := jobId
  userId := review.job.userId
  productId := review.job.productId
  ideaId := review.job.ideaId
  kind := followUp.kind
  status := .queued
  source := .system
  createdByJobId := some review.job.id
  orchestrationKey := some (followUp.loop.key review.job.ideaId followUp.round)
  summary := some followUp.summary

/-- The log in which a verdict on this kind of review is recorded. -/
def Loop.verdictLog : Loop → IdeaLogType
  | .plan => .planReviewResult
  | .spec => .jobEvent

/-- The row of `idea_logs` about a verdict. -/
def Review.ideaLog (review : Review) (content : String) : IdeaLogRow where
  ideaId := review.job.ideaId
  type := review.loop.verdictLog
  content := content
  jobId := some review.job.id
  round := some review.round

/-- What a verdict writes to the row of the idea. Only the plan loop keeps a log
there. -/
def Review.updateIdea (review : Review) (landing : Landing) (idea : IdeaRow) :
    IdeaRow :=
  match review.loop with
  | .plan =>
      { idea with
        status := landing.status.getD idea.status
        planReviewLog :=
          some (appendPlanReviewRound review.planReviewLog review.roundInput)
        reviewedAt := some review.now }
  | .spec => { idea with status := landing.status.getD idea.status }

/-! ## The review that a write dispatches -/

def Loop.reviewSummary : Loop → String
  | .plan => "Auto plan-review r"
  | .spec => "Auto spec-review r"

/-- The row of the review. -/
def Dispatch.review (dispatch : Dispatch) (jobId : String) : LoopJob where
  id := jobId
  userId := dispatch.maker.userId
  productId := dispatch.maker.productId
  ideaId := dispatch.maker.ideaId
  kind := dispatch.loop.reviewer
  status := .queued
  source := .system
  runtime := .codex
  createdByJobId := some dispatch.maker.id
  orchestrationKey :=
    some (dispatch.loop.key dispatch.maker.ideaId dispatch.maker.round)
  docId := dispatch.docId
  docRevisionId := some dispatch.docRevisionId
  summary := some (dispatch.loop.reviewSummary ++ toString dispatch.maker.round)

/-- The row of `idea_logs` about it. -/
def Dispatch.ideaLog (dispatch : Dispatch) (jobId : String) : IdeaLogRow where
  ideaId := dispatch.maker.ideaId
  type := .jobEvent
  content :=
    match dispatch.loop with
    | .plan => "IDEA_REVIEW_PLAN queued (review r" ++
        toString dispatch.maker.round ++ ")"
    | .spec => "SPEC_REVIEW queued (spec r" ++
        toString dispatch.maker.round ++ ")"
  jobId := some jobId
  round := some dispatch.maker.round

/-! ## The job that a user starts -/

/-- `IDEA_KIND_RULES`: the statuses from which a kind may start, and the status
it leads to. -/
def ideaKindRule : JobKind → Option (IdeaStatus × List IdeaStatus)
  | .ideaGrill =>
      some (.grilling, [.draft, .grilled, .grillFailed, .planReady, .planned])
  | .ideaMakePlan => some (.planning, [.grilled, .planFailed, .planReady])
  | .ideaReviewPlan => some (.reviewingPlan, [.planReady, .planReviewed])
  | .ideaMakeSpec => some (.specDrafting, [.grilled, .specFailed])
  | _ => none

/-- The row of a job that a user starts. -/
def Start.job (start : Start) (jobId : String) : LoopJob where
  id := jobId
  userId := start.userId
  productId := start.productId
  ideaId := start.ideaId
  kind := start.kind
  status := .queued
  source := .copilot
  runtime := if start.kind = .ideaReviewPlan then .codex else .claude

def Start.ideaLog (start : Start) (jobId : String) : IdeaLogRow where
  ideaId := start.ideaId
  type := .jobEvent
  content := start.kind.text ++ " queued (copilot)"
  jobId := some jobId

/-! ## The machine -/

structure World where
  jobs : List LoopJob
  ideas : List IdeaRow
  reviewLogs : List ReviewLogRow
  ideaLogs : List IdeaLogRow
  questions : List QuestionRow
  calls : List Call
  answers : List Answer
  deriving DecidableEq

namespace World

variable (world : World)

def job? (jobId : String) : Option LoopJob :=
  world.jobs.find? fun job => job.id = jobId

def idea? (ideaId : IdeaId) : Option IdeaRow :=
  world.ideas.find? fun idea => idea.id = ideaId

/-- The job has its verdict. -/
def Reviewed (jobId : String) : Prop :=
  jobId ∈ world.reviewLogs.map (·.reviewJobId)

instance (jobId : String) : Decidable (world.Reviewed jobId) :=
  inferInstanceAs (Decidable (_ ∈ _))

/-- A transaction in flight has locked the row of the idea. -/
def Locked (ideaId : IdeaId) : Prop :=
  ∃ call ∈ world.calls, call.locks = some ideaId

instance (ideaId : IdeaId) : Decidable (world.Locked ideaId) :=
  inferInstanceAs (Decidable (∃ _ ∈ _, _))

/-- A row with the creator and the key of this one would violate the unique
index. -/
def Taken (job : LoopJob) : Prop :=
  ∃ other ∈ world.jobs, other.createdByJobId = job.createdByJobId ∧
    other.createdByJobId ≠ none ∧
      other.orchestrationKey = job.orchestrationKey ∧
        other.orchestrationKey ≠ none

instance (job : LoopJob) : Decidable (world.Taken job) :=
  inferInstanceAs (Decidable (∃ _ ∈ _, _))

/-- The call is over. -/
def ended (call : Call) (answer : Option Answer) : World :=
  { world with
    calls := world.calls.erase call
    answers := world.answers ++ answer.toList }

/-- The call goes on. -/
def proceeds (call next : Call) : World :=
  { world with calls := world.calls.erase call ++ [next] }

def updateIdea (ideaId : IdeaId) (change : IdeaRow → IdeaRow) : World :=
  { world with ideas := updateWhere (·.id = ideaId) change world.ideas }

def insertJob (job : LoopJob) : World :=
  { world with jobs := world.jobs ++ [job] }

def logIdea (row : IdeaLogRow) : World :=
  { world with ideaLogs := world.ideaLogs ++ [row] }

end World

/-- `reviewStillActive`. -/
def reviewStillActive (job : Option LoopJob) (tokenId : String) : Prop :=
  ∃ live ∈ job, live.claimedByTokenId = some tokenId ∧ live.status.Held

instance (job : Option LoopJob) (tokenId : String) :
    Decidable (reviewStillActive job tokenId) :=
  match job with
  | none => .isFalse fun ⟨_, member, _⟩ => nomatch member
  | some live =>
      decidable_of_iff (live.claimedByTokenId = some tokenId ∧ live.status.Held)
        ⟨fun held => ⟨live, rfl, held⟩,
          fun ⟨_, member, held⟩ => Option.some.inj member ▸ held⟩

/-- The status in a log. -/
def statusText : JobStatus → String
  | .queued => "QUEUED"
  | .claimed => "CLAIMED"
  | .running => "RUNNING"
  | .done => "DONE"
  | .failed => "FAILED"
  | .cancelled => "CANCELLED"
  | .skipped => "SKIPPED"

/-- The log of a verdict that came too late. -/
def Review.staleLog (review : Review) (live : Option LoopJob) : IdeaLogRow :=
  let status := (live.map fun job => statusText job.status).getD "verwijderd"
  review.ideaLog <|
    match review.loop with
    | .plan => "Review r" ++ toString review.round ++ ": verdict " ++
        review.submission.verdict.text ++ " verworpen — review niet meer actief (" ++
        status ++ "); de loop is gestopt"
    | .spec => "Spec-review r" ++ toString review.round ++ ": verdict " ++
        review.submission.verdict.text ++ " verworpen — review niet meer actief (" ++
        status ++ ")"

/-- The summary that a verdict leaves on its job. -/
def Review.stamp (review : Review) : String :=
  (match review.loop with
    | .plan => "IDEA_REVIEW_PLAN "
    | .spec => "SPEC_REVIEW ") ++
    review.submission.verdict.text ++ " (" ++
    toString review.submission.findings.length ++ " findings): " ++
    slice review.submission.summary 280

/-- One transaction, one statement of a transaction that waits for others, or one
read before it. Claims, reports, cancels and everything else that happens to the
row of a job are `report`; `updateIdea` is any other write of the status of an
idea. A call can be dropped at any moment, its transaction rolled back. -/
inductive Step
  | dispatchIdeaJob (start : Start)
  | createIdeaJob (start : Start) (jobId : String)
  | report (jobId : String) (status : JobStatus) (tokenId : Option String) (summary : Option String)
  | updateIdea (ideaId : IdeaId) (status : IdeaStatus)
  | writeDocument (write : Write)
  | readMaker (write : Write)
  | lockForDispatch (dispatch : Dispatch)
  | createReview (dispatch : Dispatch) (jobId : String)
  | submitReview (submission : Submission) (autoPlanReview : Bool) (now : Moment)
  | lockForVerdict (review : Review)
  | searchLoop (review : Review)
  | land (review : Review) (active : Option LoopJob) (jobId : String)
  | stamp (review : Review) (outcome : Outcome)
  | drop (call : Call)
  deriving DecidableEq

namespace Step

/-- The step can be taken in this state. -/
def Enabled (world : World) : Step → Prop
  | dispatchIdeaJob start =>
      (∃ rule ∈ ideaKindRule start.kind, ∃ idea ∈ world.idea? start.ideaId,
        idea.status ∈ rule.2) ∧
        ∀ job ∈ world.jobs, job.ideaId = start.ideaId → ¬ job.status.Active
  | createIdeaJob start jobId =>
      .starting start ∈ world.calls ∧ jobId ∉ world.jobs.map (·.id) ∧
        ¬ world.Locked start.ideaId
  -- What has ended stays ended.
  | report jobId status _ _ =>
      ∃ job ∈ world.job? jobId, status.Active → job.status.Active
  | updateIdea ideaId _ => ¬ world.Locked ideaId
  | writeDocument write => world.idea? write.ideaId ≠ none ∧ ¬ world.Locked write.ideaId
  | readMaker write => .written write ∈ world.calls
  | lockForDispatch dispatch =>
      .dispatching dispatch ∈ world.calls ∧ ¬ world.Locked dispatch.maker.ideaId
  | createReview dispatch jobId =>
      .granted dispatch ∈ world.calls ∧ jobId ∉ world.jobs.map (·.id)
  | submitReview submission _ _ =>
      ∃ job ∈ world.job? submission.jobId,
        reviewLoop? job.kind ≠ none ∧ world.idea? job.ideaId ≠ none
  | lockForVerdict review =>
      .reviewing review ∈ world.calls ∧ ¬ world.Locked review.job.ideaId
  | searchLoop review => .judging review ∈ world.calls
  | land review active jobId =>
      .searched review active ∈ world.calls ∧ jobId ∉ world.jobs.map (·.id)
  | stamp review outcome => .landed review outcome ∈ world.calls
  | drop call => call ∈ world.calls

end Step

/-- `handleSubmitReview` up to its transaction. -/
def World.review? (world : World) (submission : Submission) (autoPlanReview : Bool) (now : Moment) :
    Option Review := do
  let job ← world.job? submission.jobId
  let loop ← reviewLoop? job.kind
  let idea ← world.idea? job.ideaId
  return {
    submission := submission
    loop := loop
    job := job
    planReviewLog := idea.planReviewLog
    autoPlanReview := autoPlanReview
    now := now }

/-- The write of the document, in one transaction. -/
def World.written (world : World) (write : Write) : World :=
  { (world.updateIdea write.ideaId fun idea =>
      match write.loop with
      | .plan => { idea with status := .planReady }
      | .spec => { idea with specDocId := some write.docId }).logIdea
        { ideaId := write.ideaId, type := .planResult, content := write.content }
    with calls := world.calls ++ [.written write] }

/-- The reads of `maybeAutoDispatchPlanReview` and `maybeAutoDispatchSpecReview`
before their transaction. -/
def World.dispatch? (world : World) (write : Write) : Option Dispatch := do
  let maker ← newestMaker write.loop world.jobs write.ideaId
  match write.loop with
  | .plan =>
      if write.autoPlanReview then
        some { loop := .plan
               maker := maker
               docId := some write.docId
               docRevisionId := write.revisionId
               writer := write.writer }
      else none
  | .spec =>
      let idea ← world.idea? write.ideaId
      let specDocId ← idea.specDocId
      some { loop := .spec
             maker := maker
             docId := some specDocId
             docRevisionId := write.revisionId
             writer := write.writer }

/-- The transaction of `maybeAutoDispatchPlanReview` and of
`maybeAutoDispatchSpecReview`, after its search. -/
def World.reviewCreated (world : World) (dispatch : Dispatch) (jobId : String) :
    World :=
  if world.Taken (dispatch.review jobId) then
    -- `isP2002`: the round was dispatched before.
    world.ended (.granted dispatch) (some (.wrote dispatch.writer false))
  else
    (((world.insertJob (dispatch.review jobId)).updateIdea dispatch.maker.ideaId
      fun idea => { idea with status := dispatch.loop.reviewing }).logIdea
        (dispatch.ideaLog jobId)).ended (.granted dispatch) (some (.wrote dispatch.writer true))

/-- The transaction of a verdict up to the check of the review. -/
def World.judged (world : World) (review : Review) : World :=
  if world.Reviewed review.job.id then
    world.proceeds (.reviewing review) (.landed review .alreadyProcessed)
  else
    let live := world.job? review.job.id
    if reviewStillActive live review.submission.tokenId then
      world.proceeds (.reviewing review) (.judging review)
    else
      (world.logIdea (review.staleLog live)).ended (.reviewing review)
        (some (.verdict review.job.id .stale))

/-- The search for another job of the loop. -/
def World.search (world : World) (review : Review) : Option LoopJob :=
  findActive review.loop world.jobs review.job.ideaId
    [some review.job.id, review.job.createdByJobId]

/-- What the transaction of a verdict writes. -/
def World.landed (world : World) (review : Review) (active : Option LoopJob) (jobId : String) :
    World :=
  let landing := review.landing active
  let followUp := landing.followUp.map (review.followUpJob jobId)
  if ∃ job ∈ followUp.toList, world.Taken job then
    world.ended (.searched review active) none
  else
    { world with
      jobs := world.jobs ++ followUp.toList
      ideas := updateWhere (·.id = review.job.ideaId) (review.updateIdea landing) world.ideas
      reviewLogs := world.reviewLogs ++ [review.logRow]
      ideaLogs := world.ideaLogs ++ [review.ideaLog landing.content]
      questions := world.questions ++ (landing.question.map fun question =>
        { ideaId := review.job.ideaId
          productId := review.job.productId
          askedBy := review.job.userId
          question := question }).toList
      calls := world.calls.erase (.searched review active) ++ [.landed review landing.outcome] }

/-- The step, when it can be taken. -/
def perform (world : World) : Step → World
  | .dispatchIdeaJob start =>
      { world with calls := world.calls ++ [.starting start] }
  | .createIdeaJob start jobId =>
      (((world.insertJob (start.job jobId)).updateIdea start.ideaId fun idea =>
        { idea with
          status := ((ideaKindRule start.kind).map (·.1)).getD idea.status
        }).logIdea (start.ideaLog jobId)).ended (.starting start) none
  | .report jobId status tokenId summary =>
      { world with
        jobs := updateWhere (·.id = jobId) (fun job => { job with
            status := status
            claimedByTokenId := tokenId
            summary := summary }) world.jobs }
  | .updateIdea ideaId status =>
      world.updateIdea ideaId fun idea => { idea with status := status }
  | .writeDocument write => world.written write
  | .readMaker write =>
      match world.dispatch? write with
      | some dispatch => world.proceeds (.written write) (.dispatching dispatch)
      | none =>
          world.ended (.written write) (some (.wrote write.writer false))
  | .lockForDispatch dispatch =>
      if findActive dispatch.loop world.jobs dispatch.maker.ideaId
          [some dispatch.maker.id] = none then
        world.proceeds (.dispatching dispatch) (.granted dispatch)
      else
        world.ended (.dispatching dispatch) (some (.wrote dispatch.writer false))
  | .createReview dispatch jobId => world.reviewCreated dispatch jobId
  | .submitReview submission autoPlanReview now =>
      { world with
        calls := world.calls ++ ((world.review? submission autoPlanReview now).map
            Call.reviewing).toList }
  | .lockForVerdict review => world.judged review
  | .searchLoop review =>
      world.proceeds (.judging review) (.searched review (world.search review))
  | .land review active jobId => world.landed review active jobId
  | .stamp review outcome =>
      { (world.ended (.landed review outcome) (some (.verdict review.job.id outcome))) with
        jobs := updateWhere (·.id = review.job.id)
          (fun job => { job with summary := some review.stamp }) world.jobs }
  | .drop call => world.ended call none

instance (world : World) (step : Step) : Decidable (step.Enabled world) := by
  apply @Step.casesOn (fun step => Decidable (step.Enabled world)) step <;>
    intros <;> dsimp only [Step.Enabled] <;> infer_instance

def execute (world : World) (step : Step) : World :=
  if step.Enabled world then perform world step else world

end Reviews
end Scrum4Me
