import Scrum4Me.Reviews.Ledger

/-!
# The loops are bounded

Whatever calls, claims and cancels come in between: a review has one verdict and
one follow-up at most, a maker one review, and from one maker that a user starts
no more than twenty jobs ever arise. A verdict that comes too late leaves a line
in the log of the idea, or, when the review has a verdict already, the summary of
its job.
-/

namespace Scrum4Me
namespace Reviews

open Foundation Jobs Origin Relation

namespace World

variable (world : World)

/-- The jobs that a job created. -/
def children (job : LoopJob) : List LoopJob :=
  world.jobs.filter fun child => child.createdByJobId = some job.id

def Creates (parent child : LoopJob) : Prop :=
  parent ∈ world.jobs ∧ child ∈ world.jobs ∧
    child.createdByJobId = some parent.id

/-- The job is `root`, or grew from it over any number of jobs. -/
def Arises (root job : LoopJob) : Prop := ReflTransGen world.Creates root job

/-- The verdicts on a review. -/
def verdicts (job : LoopJob) : List ReviewLogRow :=
  world.reviewLogs.filter fun row => row.reviewJobId = job.id

/-- The chain of a review loop is bounded, and its log complete. -/
structure Bounded : Prop where
  verdicts : ∀ job ∈ world.jobs, (world.verdicts job).length ≤ 1
  followUps : ∀ review ∈ world.jobs, reviewLoop? review.kind ≠ none →
    (world.children review).length ≤ 1
  reviews : ∀ loop, ∀ maker ∈ world.jobs, maker.kind ∈ Loop.makers loop →
    ((world.children maker).filter fun job => reviewLoop? job.kind ≠ none).length ≤ 1
  reviewRound : ∀ loop, ∀ maker ∈ world.jobs, maker.kind ∈ Loop.makers loop →
    ∀ review ∈ world.children maker, review.round = maker.round
  revisionRound : ∀ loop, ∀ review ∈ world.jobs,
    review.kind = Loop.reviewer loop → ∀ revision ∈ world.children review,
      revision.kind = revisor loop → revision.round = review.round + 1
  rounds : ∀ job ∈ world.jobs,
    parseLoopRound job.orchestrationKey ≤ MAX_LOOP_ROUNDS
  family : ∀ maker ∈ world.jobs, maker.createdByJobId = none →
    ∀ family : List LoopJob, family.Nodup →
      (∀ job ∈ family, world.Arises maker job) → family.length ≤ 20
  log : ∀ idea ∈ world.ideas,
    List.Forall₂ (Records world.origins) (roundsOf idea.planReviewLog) (world.planReviews idea.id)

end World

/-- The tables differ in nothing but the summary of a job. -/
structure OnlySummary (world world' : World) (jobId : String) : Prop where
  ideas : world'.ideas = world.ideas
  reviewLogs : world'.reviewLogs = world.reviewLogs
  ideaLogs : world'.ideaLogs = world.ideaLogs
  questions : world'.questions = world.questions
  jobs : ∃ summary : LoopJob → Option String,
    world'.jobs = updateWhere (fun job => job.id = jobId)
      (fun job => { job with summary := summary job }) world.jobs

/-- The step belongs to a call of `submit_review`. -/
def Step.Submits (review : Review) : Step → Prop
  | lockForVerdict other => other = review
  | searchLoop other => other = review
  | land other _ _ => other = review
  | stamp other _ => other = review
  | _ => False

/-- A verdict of a caller that does not hold the review, which has none yet,
leaves one line in the log of the idea, and the call is over. -/
def RefusesLate (world : World) (step : Step) : Prop :=
  ∀ review, step = .lockForVerdict review → step.Enabled world →
    ¬ world.Reviewed review.job.id →
      ¬ reviewStillActive (world.job? review.job.id) review.submission.tokenId →
        execute world step = (world.logIdea (review.staleLog (world.job? review.job.id))).ended
            (.reviewing review) (some (.verdict review.job.id .stale))

/-- A verdict on a review that has one changes the summary of its job at most. -/
def KeepsVerdict (world : World) (step : Step) : Prop :=
  ∀ review, step.Submits review → world.Reviewed review.job.id →
    OnlySummary world (execute world step) review.job.id

variable {world : World}

/-! ## The bounds -/

theorem OnlySummary.refl (world : World) (jobId : String) : OnlySummary world world jobId where
  ideas := rfl
  reviewLogs := rfl
  ideaLogs := rfl
  questions := rfl
  jobs := ⟨(·.summary), (updateWhere_eq_self fun _ _ _ => rfl).symm⟩

/-- Two jobs with one creator are one job. -/
theorem Sound.child_unique
    (sound : Sound world) {first second : LoopJob} (firstMember : first ∈ world.jobs)
    (secondMember : second ∈ world.jobs) (created : first.createdByJobId ≠ none)
    (same : first.createdByJobId = second.createdByJobId) :
    first = second := by
  have origin := sound.forest.single first.origin (List.mem_map_of_mem firstMember)
    second.origin (List.mem_map_of_mem secondMember) created same
  exact List.inj_on_of_nodup_map (job_ids sound) firstMember secondMember
    (congrArg Origin.id origin)

theorem Sound.children_le_one (sound : Sound world) (job : LoopJob) :
    (world.children job).length ≤ 1 := by
  refine length_le_one ((job_ids sound).of_map.filter _) ?_
  intro first firstMember second secondMember
  rw [World.children, List.mem_filter] at firstMember secondMember
  have firstCreated := of_decide_eq_true firstMember.2
  have secondCreated := of_decide_eq_true secondMember.2
  refine sound.child_unique firstMember.1 secondMember.1 ?_ (firstCreated.trans secondCreated.symm)
  rw [firstCreated]
  exact nofun

theorem Sound.grows (sound : Sound world) {parent child : LoopJob}
    (creates : world.Creates parent child) :
    Follows parent.origin child.origin :=
  sound.forest.follows (List.mem_map_of_mem creates.1) (List.mem_map_of_mem creates.2.1) creates.2.2

theorem Sound.creates_of_child {parent child : LoopJob} (member : parent ∈ world.jobs)
    (inside : child ∈ world.children parent) :
    world.Creates parent child := by
  rw [World.children, List.mem_filter] at inside
  exact ⟨member, inside.1, of_decide_eq_true inside.2⟩

/-- From one job no more than twenty arise, it included. -/
theorem Sound.family_le (sound : Sound world) {root : LoopJob} (member : root ∈ world.jobs)
    {family : List LoopJob} (distinct : family.Nodup)
    (arise : ∀ job ∈ family, world.Arises root job) :
    family.length ≤ 20 := by
  have rounds : ∀ job ∈ world.jobs, job.origin.round ≤ MAX_LOOP_ROUNDS :=
    fun job inside => sound.forest.rounds _ (List.mem_map_of_mem inside)
  refine @lineage_length_le _ world.Creates (fun job => job.origin.rank) ?_ ?_ root
    20 family distinct arise ?_
  · intro parent first second firstCreates secondCreates
    refine sound.child_unique firstCreates.2.1 secondCreates.2.1 ?_
      (firstCreates.2.2.trans secondCreates.2.2.symm)
    rw [firstCreates.2.2]
    exact nofun
  · intro parent child creates
    exact (sound.grows creates).grows.rank_lt (rounds parent creates.1)
  · intro job inside
    refine Origin.rank_lt (rounds job ?_)
    rcases (arise job inside).cases_tail with rfl | ⟨_, _, creates⟩
    · exact member
    · exact creates.2.1

theorem Sound.bounded (sound : Sound world) (ledger : Ledger world) : world.Bounded where
  verdicts := by
    intro job member
    by_cases reviewed : job.id ∈ world.reviewed
    · obtain ⟨row, inside, named⟩ := List.mem_map.mp reviewed
      have found := filter_key ReviewLogRow.reviewJobId sound.forest.reviewedOnce inside
      rw [World.verdicts, ← named, found]
      exact Nat.le_refl 1
    · have none : world.verdicts job = [] := by
        rw [World.verdicts, List.filter_eq_nil_iff]
        intro row inside named
        exact reviewed (List.mem_map.mpr ⟨row, inside, of_decide_eq_true named⟩)
      rw [none]
      exact Nat.zero_le 1
  followUps := fun review _ _ => sound.children_le_one review
  reviews := fun _ maker _ _ => (List.length_filter_le _ _).trans (sound.children_le_one maker)
  reviewRound := by
    intro loop maker member makes review inside
    have creates := Sound.creates_of_child member inside
    exact ((sound.grows creates).grows.round_of_maker makes).2
  revisionRound := by
    intro loop review member reviews revision inside revises
    have creates := Sound.creates_of_child member inside
    exact (sound.grows creates).grows.round_of_revisor reviews revises
  rounds := by
    intro job member
    have bounded := sound.forest.rounds _ (List.mem_map_of_mem member)
    exact (Nat.le_max_left _ _).trans bounded
  family := fun maker member _ family distinct arise => sound.family_le member distinct arise
  log := fun idea member => ledger.recorded _ (List.mem_map_of_mem member)

/-! ## Late and repeated verdicts -/

theorem refuses_late (world : World) (step : Step) : RefusesLate world step := by
  rintro review rfl enabled unreviewed inactive
  rw [execute, if_pos enabled]
  show world.judged review = _
  rw [World.judged, if_neg unreviewed]
  exact if_neg inactive

theorem Sound.keeps_verdict (sound : Sound world) (step : Step) : KeepsVerdict world step := by
  intro review submits reviewed
  unfold execute
  split
  case isFalse => exact .refl world _
  case isTrue enabled =>
  cases step with
  | lockForVerdict other =>
    cases submits
    show OnlySummary world (world.judged review) _
    rw [World.judged, if_pos reviewed]
    exact { OnlySummary.refl world review.job.id with }
  | searchLoop other =>
    cases submits
    -- A review that is judged has no verdict.
    exact absurd reviewed (sound.knows _ enabled).2.2
  | land other active jobId =>
    cases submits
    exact absurd reviewed (sound.knows _ enabled.1).2.2
  | stamp other outcome =>
    cases submits
    exact ⟨rfl, rfl, rfl, rfl, ⟨fun _ => some review.stamp, rfl⟩⟩
  | _ => exact submits.elim

/-! ## Every run -/

theorem ledger_initial {ideas : List IdeaRow} (distinct : (ideas.map (·.id)).Nodup)
    (blank : ∀ idea ∈ ideas, roundsOf idea.planReviewLog = []) :
    Ledger (World.initial ideas) where
  ids := by
    rw [World.logs, List.map_map]
    exact distinct
  recorded := by
    intro entry member
    obtain ⟨idea, inside, rfl⟩ := List.mem_map.mp member
    rw [blank idea inside]
    exact .nil
  alone := by
    rintro ideaId first second ⟨job, member, -⟩
    cases member
  current := List.forall_mem_nil _

namespace ReviewRuns

def idea : IdeaRow where
  id := .sample
  productId := "product"
  status := .grilled

/-- A maker of the plan is started, writes, and its review gets a verdict. -/
def start : Start where
  kind := .ideaMakePlan
  ideaId := idea.id
  userId := "user"
  productId := "product"

def write : Write where
  loop := .plan
  ideaId := idea.id
  docId := "doc"
  revisionId := "revision"
  autoPlanReview := true
  content := "Plan ready"
  writer := some "maker"

def maker (status : JobStatus) : LoopJob :=
  { start.job "maker" with status := status, claimedByTokenId := some "worker" }

def dispatch : Dispatch where
  loop := .plan
  maker := maker .claimed
  docId := some "doc"
  docRevisionId := "revision"
  writer := some "maker"

def submission (verdict : Verdict) : Submission where
  jobId := "review"
  verdict := verdict
  findings := []
  summary := "seen"
  tokenId := "reviewer"

/-- The call of `submit_review` that read the review in this status. -/
def review (verdict : Verdict) (status : JobStatus) (summary : Option String)
    (log : Option PlanReviewLog) :
    Review where
  submission := submission verdict
  loop := .plan
  job := { dispatch.review "review" with
    status := status
    claimedByTokenId := some "reviewer"
    summary := summary }
  planReviewLog := log
  autoPlanReview := true
  now := 0

def first : Review := review .approved .claimed (some "r1") none

/-- Up to the verdict, which approves the plan. -/
def upToVerdict : List Step :=
  [.dispatchIdeaJob start, .createIdeaJob start "maker",
    .report "maker" .claimed (some "worker") none, .writeDocument write,
    .readMaker write, .lockForDispatch { dispatch with maker := maker .claimed },
    .createReview { dispatch with maker := maker .claimed } "review",
    .report "review" .claimed (some "reviewer") (some "r1"),
    .submitReview (submission .approved) true 0, .lockForVerdict first,
    .searchLoop first, .land first none "unused", .stamp first .approved,
    .report "review" .done (some "reviewer") (some first.stamp)]

/-- The second verdict, after the review has ended. -/
def second : Review :=
  review .rejected .done (some first.stamp) (some (appendPlanReviewRound none first.roundInput))

def after : World := run execute (World.initial [idea]) upToVerdict

def resubmitted : World :=
  run execute after [.submitReview (submission .rejected) true 0, .lockForVerdict second,
      .stamp second .alreadyProcessed]

end ReviewRuns

end Reviews
end Scrum4Me
