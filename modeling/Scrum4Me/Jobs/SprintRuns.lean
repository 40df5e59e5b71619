import Scrum4Me.Jobs.Schema
import Scrum4Me.Foundation.Transaction
import Mathlib.Data.List.Sort
import Mathlib.Data.Prod.Lex
import Mathlib.Data.String.Basic
import Mathlib.Algebra.Order.Ring.Rat

/-!
# Starting a sprint run

`startSprintRunCore` checks that a sprint can run and then creates the run and
its jobs: one for the whole sprint, or one for each open task, numbered in the
order of the plan.
-/

namespace Scrum4Me
namespace Jobs

open Foundation

/-! ## The plan -/

/-- `SprintStatus`. -/
inductive SprintStatus
  | opened | closed | archived | failed
  deriving DecidableEq

/-- `PbiStatus`. -/
inductive PbiStatus
  | ready | blocked | failed | done
  deriving DecidableEq

/-- `StoryStatus`. -/
inductive StoryStatus
  | opened | inSprint | done | failed
  deriving DecidableEq

/-- `TaskStatus`. -/
inductive TaskStatus
  | toDo | inProgress | review | done | failed | excluded
  deriving DecidableEq

/-- `PrStrategy`. -/
inductive PrStrategy
  | sprint | story | sprintBatch
  deriving DecidableEq

structure ProductRow where
  id : String
  prStrategy : PrStrategy
  repoUrl : Option String
  deriving DecidableEq

structure SprintRow where
  id : String
  productId : String
  status : SprintStatus
  deriving DecidableEq

structure PbiRow where
  id : String
  code : String
  title : String
  status : PbiStatus
  sortOrder : Rat
  createdAt : Moment
  deriving DecidableEq

structure TaskRow where
  id : String
  code : String
  title : String
  storyId : String
  productId : String
  status : TaskStatus
  implementationPlan : Option String
  repoUrl : Option String
  dispatchRequestId : Option Uuid
  sortOrder : Rat
  createdAt : Moment
  deriving DecidableEq

/-- A story with what the query includes: its item and its open tasks. -/
structure StoryRow where
  id : String
  sprintId : Option String
  status : StoryStatus
  sortOrder : Rat
  createdAt : Moment
  pbi : PbiRow
  tasks : List TaskRow
  deriving DecidableEq

/-- An open question on a story. -/
structure QuestionRow where
  id : String
  question : String
  deriving DecidableEq

/-! ## The order of the plan -/

/-- Planned position, then age, then identifier. The generated identifiers
compare by code points as they do by locale. -/
abbrev PlanKey := Rat ×ₗ Moment ×ₗ String

def planKey (sortOrder : Rat) (createdAt : Moment) (id : String) : PlanKey :=
  toLex (sortOrder, toLex (createdAt, id))

def PbiRow.key (pbi : PbiRow) : PlanKey :=
  planKey pbi.sortOrder pbi.createdAt pbi.id

/-- Stories of an earlier item come first, whatever their own position. -/
def StoryRow.key (story : StoryRow) : PlanKey ×ₗ PlanKey :=
  toLex (story.pbi.key, planKey story.sortOrder story.createdAt story.id)

def TaskRow.key (task : TaskRow) : PlanKey :=
  planKey task.sortOrder task.createdAt task.id

/-- A task with the story it belongs to. -/
abbrev PlannedTask := StoryRow × TaskRow

def PlannedTask.key (planned : PlannedTask) :
    (PlanKey ×ₗ PlanKey) ×ₗ PlanKey :=
  toLex (planned.1.key, planned.2.key)

def orderedStories (stories : List StoryRow) : List StoryRow :=
  stories.insertionSort fun first second => first.key ≤ second.key

/-- `orderedTasks`, each with its story. -/
def orderedTasks (stories : List StoryRow) : List PlannedTask :=
  (orderedStories stories).flatMap fun story =>
    (story.tasks.insertionSort fun first second => first.key ≤ second.key).map
      fun task => (story, task)

theorem orderedStories_perm (stories : List StoryRow) : (orderedStories stories).Perm stories :=
  List.perm_insertionSort _ stories

theorem orderedStories_pairwise (stories : List StoryRow) :
    (orderedStories stories).Pairwise fun first second =>
      first.key ≤ second.key := by
  have total : Std.Total fun first second : StoryRow =>
      first.key ≤ second.key := ⟨fun first second => le_total _ _⟩
  have transitive : IsTrans StoryRow fun first second =>
      first.key ≤ second.key := ⟨fun _ _ _ => le_trans⟩
  exact List.pairwise_insertionSort _ stories

/-- Stories with different identifiers have different keys. -/
theorem StoryRow.id_of_key {first second : StoryRow} (same : first.key = second.key) :
    first.id = second.id := by
  simp only [StoryRow.key, planKey, EmbeddingLike.apply_eq_iff_eq, Prod.mk.injEq] at same
  exact same.2.2.2

variable {stories : List StoryRow} {opts : SprintStart}

/-- The numbered order is the order of the plan: item, story, task. -/
theorem orderedTasks_pairwise (distinct : (stories.map (·.id)).Nodup) :
    (orderedTasks stories).Pairwise fun first second =>
      first.key ≤ second.key := by
  rw [orderedTasks, List.pairwise_flatMap]
  constructor
  · intro story _
    have total : Std.Total fun first second : TaskRow =>
        first.key ≤ second.key := ⟨fun first second => le_total _ _⟩
    have transitive : IsTrans TaskRow fun first second =>
        first.key ≤ second.key := ⟨fun _ _ _ => le_trans⟩
    rw [List.pairwise_map]
    refine (List.pairwise_insertionSort _ story.tasks).imp ?_
    intro first second ordered
    exact Prod.Lex.toLex_le_toLex.2 (.inr ⟨rfl, ordered⟩)
  · have apart : (orderedStories stories).Pairwise fun first second =>
        first.id ≠ second.id := by
      have perm := (orderedStories_perm stories).map (·.id)
      exact List.pairwise_map.1 (perm.nodup_iff.2 distinct)
    refine ((orderedStories_pairwise stories).and apart).imp ?_
    rintro earlier later ⟨ordered, different⟩ first firstTask second secondTask
    obtain ⟨task, _, rfl⟩ := List.mem_map.1 firstTask
    obtain ⟨other, _, rfl⟩ := List.mem_map.1 secondTask
    have strict : earlier.key < later.key :=
      lt_of_le_of_ne ordered fun same => different (StoryRow.id_of_key same)
    exact Prod.Lex.toLex_le_toLex.2 (.inl strict)

/-! ## Pre-flight -/

/-- `PreFlightBlocker`. -/
structure PreFlightBlocker where
  type : String
  id : String
  label : String
  deriving DecidableEq

/-- What `startSprintRunCore` reads: the sprint with its product, its runs, the
unfinished stories with their open tasks, and the open questions. -/
structure SprintPlanning where
  sprint : Option (SprintRow × ProductRow)
  runs : List SprintRunRow
  stories : List StoryRow
  openQuestions : List QuestionRow
  deriving DecidableEq

/-- `['QUEUED', 'RUNNING', 'PAUSED'].includes(status)`. -/
def SprintRunStatus.Active (status : SprintRunStatus) : Prop :=
  status ∈ [SprintRunStatus.queued, .running, .paused]

instance (status : SprintRunStatus) : Decidable status.Active :=
  inferInstanceAs (Decidable (_ ∈ _))

def taskLabel (task : TaskRow) : String := task.code ++ ": " ++ task.title

/-- The tasks of all stories, story by story. -/
def storyTasks (stories : List StoryRow) : List TaskRow :=
  stories.flatMap (·.tasks)

def planBlockers (stories : List StoryRow) : List PreFlightBlocker :=
  ((storyTasks stories).filter fun task =>
      task.implementationPlan = none ∨ task.implementationPlan = some "").map
    fun task => ⟨"task_no_plan", task.id, taskLabel task⟩

def questionBlockers (questions : List QuestionRow) : List PreFlightBlocker :=
  questions.map fun q =>
    ⟨"open_question", q.id, String.ofList (q.question.toList.take 80)⟩

/-- Each item once, where it first appears. -/
def pbiBlockers (stories : List StoryRow) : List PreFlightBlocker :=
  let seen := stories.foldl (fun seen story =>
    if story.pbi.id ∈ seen.map (·.id) then seen else seen ++ [story.pbi]) []
  (seen.filter fun pbi => pbi.status = .blocked ∨ pbi.status = .failed).map
    fun pbi => ⟨"pbi_blocked", pbi.id, pbi.code ++ ": " ++ pbi.title⟩

def crossRepoBlockers (product : ProductRow) (stories : List StoryRow) :
    List PreFlightBlocker :=
  if product.prStrategy = .sprintBatch then
    ((storyTasks stories).filter fun task =>
        task.repoUrl ≠ none ∧ task.repoUrl ≠ some "" ∧
          task.repoUrl ≠ product.repoUrl).map
      fun task => ⟨"task_cross_repo", task.id, taskLabel task⟩
  else []

def preFlightError (blockers : List PreFlightBlocker) : String :=
  "PRE_FLIGHT_BLOCKED: " ++
    "; ".intercalate (blockers.map fun b => b.type ++ " " ++ b.label)

/-! ## The run and its jobs -/

/-- Who starts which sprint, and the identifiers and moment that the rows get. -/
structure SprintStart where
  sprintId : String
  productId : String
  userId : String
  runId : String
  jobId : Nat → String
  now : Moment

/-- The columns that all jobs of a run share. -/
def SprintStart.job (opts : SprintStart) (number : Nat) : JobRow where
  id := opts.jobId number
  userId := opts.userId
  productId := opts.productId
  taskId := none
  ideaId := none
  sprintRunId := some opts.runId
  sprintSequence := none
  kind := .sprintImplementation
  status := .queued
  runtime := .claude
  source := .copilot
  requiredCapability := none
  workerInstanceId := none
  dispatchRequestId := none
  dispatchCandidateId := none
  createdAt := opts.now

/-- The job of a task: its sequence is its place in the order. -/
def SprintStart.taskJob (opts : SprintStart) (sprintSequence : Nat) (planned : PlannedTask) :
    JobRow :=
  { opts.job sprintSequence with
    taskId := some planned.2.id
    sprintSequence := some (sprintSequence : Int)
    kind := .taskImplementation }

def SprintStart.jobs (opts : SprintStart) (product : ProductRow) (stories : List StoryRow) :
    List JobRow :=
  if product.prStrategy = .sprintBatch then [opts.job 0]
  else (orderedTasks stories).mapIdx opts.taskJob

/-- `startSprintRunCore`. -/
def startSprintRunCore (opts : SprintStart) (plan : SprintPlanning) :
    Except String (SprintRunRow × List JobRow) := do
  let notFound := "Sprint " ++ opts.sprintId ++ " not found in this product"
  let (sprint, product) ← require plan.sprint notFound
  ensure (sprint.productId = opts.productId) notFound
  ensure (sprint.status = .opened) "Sprint is niet OPEN."
  ensure (∀ run ∈ plan.runs, ¬ (run.sprintId = opts.sprintId ∧
    run.status.Active)) "Er is al een actieve sprint-run."
  let blockers := planBlockers plan.stories ++
    questionBlockers plan.openQuestions ++ pbiBlockers plan.stories ++
    crossRepoBlockers product plan.stories
  ensure (blockers = []) (preFlightError blockers)
  return (⟨opts.runId, opts.sprintId, .queued⟩, opts.jobs product plan.stories)

/-- What a successful start leaves. -/
theorem startSprintRunCore_ok {plan : SprintPlanning} {run : SprintRunRow} {jobs : List JobRow}
    (started : startSprintRunCore opts plan = .ok (run, jobs)) :
    run = ⟨opts.runId, opts.sprintId, .queued⟩ ∧ (∀ other ∈ plan.runs,
        ¬ (other.sprintId = opts.sprintId ∧ other.status.Active)) ∧
      ∃ product : ProductRow, jobs = opts.jobs product plan.stories := by
  simp only [startSprintRunCore, bind_eq_ok, require_eq_ok, ensure_eq_ok,
    pure_eq_ok, Prod.mk.injEq] at started
  obtain ⟨⟨sprint, product⟩, _, _, _, _, _, _, idle, _, _, rfl, rfl⟩ := started
  exact ⟨rfl, idle, product, rfl⟩

/-- The task jobs of a run: distinct numbers from zero, in the order of the
plan. -/
theorem SprintStart.jobs_task {product : ProductRow} {job : JobRow} :
    job ∈ opts.jobs product stories → job.kind = .taskImplementation →
      ∃ number planned, (orderedTasks stories)[number]? = some planned ∧
        job = opts.taskJob number planned := by
  intro member task
  unfold SprintStart.jobs at member
  split at member
  · rw [List.mem_singleton.1 member] at task
    cases task
  · rw [List.mem_mapIdx] at member
    obtain ⟨number, bound, rfl⟩ := member
    exact ⟨number, _, List.getElem?_eq_getElem bound, rfl⟩

end Jobs
end Scrum4Me
