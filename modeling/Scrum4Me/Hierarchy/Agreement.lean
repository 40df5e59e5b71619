import Scrum4Me.Hierarchy.Propagation

/-!
# Statuses agree with their children

A propagation that commits leaves every status as its children decide it, provided
that what it read is still so: no other propagation may give a task another status
after the tasks of its story were read, or change the decision for a story after
its PBI was read.
-/

namespace Scrum4Me
namespace Hierarchy

open Foundation
open Jobs (TaskStatus StoryStatus PbiStatus SprintStatus)

/-- Identifiers are primary keys. -/
structure Db.Keyed (db : Db) : Prop where
  tasks : (db.tasks.map (·.id)).Nodup
  stories : (db.stories.map (·.id)).Nodup
  pbis : (db.pbis.map (·.id)).Nodup

/-- Every status is what the children decide; a blocked PBI stays blocked. -/
structure Db.Agreeing (db : Db) : Prop where
  stories : ∀ story ∈ db.stories, story.status = db.storyDecision story
  pbis : ∀ pbi ∈ db.pbis, pbi.status ≠ .blocked →
    pbi.status = decidePbiStatus (db.storyStatuses pbi.id) pbi.status

instance (db : Db) : Decidable db.Keyed :=
  decidable_of_iff ((db.tasks.map (·.id)).Nodup ∧ (db.stories.map (·.id)).Nodup ∧
      (db.pbis.map (·.id)).Nodup)
    ⟨fun ⟨tasks, stories, pbis⟩ => ⟨tasks, stories, pbis⟩,
      fun keyed => ⟨keyed.tasks, keyed.stories, keyed.pbis⟩⟩

instance (db : Db) : Decidable db.Agreeing :=
  decidable_of_iff ((∀ story ∈ db.stories, story.status = db.storyDecision story) ∧
      ∀ pbi ∈ db.pbis, pbi.status ≠ .blocked →
        pbi.status = decidePbiStatus (db.storyStatuses pbi.id) pbi.status)
    ⟨fun ⟨stories, pbis⟩ => ⟨stories, pbis⟩,
      fun agreeing => ⟨agreeing.stories, agreeing.pbis⟩⟩

namespace Call

variable (call : Call)

/-- The story whose tasks the call has read. -/
def readTasksOf : Option String :=
  match call.stage with
  | .called => none
  | .updated _ => none
  | .siblingsRead storyId _ => some storyId
  | .storyRead part => some part.story.id
  | .storySettled part => some part.story.id
  | .pbiRead part _ => some part.story.id
  | .storiesRead part => some part.story.id
  | .pbiSettled part => some part.story.id
  | .sprintRead part _ => some part.story.id
  | .sprintStoriesRead part _ _ => some part.story.id
  | .sprintPbisRead part _ _ => some part.story.id
  | .settled part _ => some part.story.id

/-- The PBI that the call has read. -/
def readPbi : Option String :=
  match call.stage with
  | .pbiRead _ pbi => some pbi.id
  | .storiesRead part => some part.pbi.id
  | .pbiSettled part => some part.pbi.id
  | .sprintRead part _ => some part.pbi.id
  | .sprintStoriesRead part _ _ => some part.pbi.id
  | .sprintPbisRead part _ _ => some part.pbi.id
  | .settled part _ => some part.pbi.id
  | _ => none

end Call

/-- A call that gives its task another status commits while no other call has read
the tasks of that story; one that changes the decision for the story, while no
other has read the PBI of the story. -/
def Step.Undisturbed (world : World) : Step → Prop
  | commit call =>
      ∀ task ∈ world.db.tasks, task.id = call.taskId →
        ∀ other ∈ world.calls.erase call,
          (other.readTasksOf = some task.storyId → task.status = call.newStatus) ∧
            ∀ story ∈ world.db.stories, story.id = task.storyId →
              other.readPbi = some story.pbiId →
                (world.db.setTask call.taskId call.newStatus).storyDecision story =
                  story.status
  | _ => True

instance (world : World) (step : Step) : Decidable (step.Undisturbed world) := by
  apply @Step.casesOn (fun step => Decidable (step.Undisturbed world)) step <;>
    intros <;> dsimp only [Step.Undisturbed] <;> infer_instance

/-! ## What a call relies on -/

/-- The task belongs to the story. -/
def Db.Owns (db : Db) (storyId taskId : String) : Prop :=
  ∃ task ∈ db.tasks, task.id = taskId ∧ task.storyId = storyId

/-- The story is still as a call read it that gives the task this status, and the
decision still the same. -/
structure StoryPart.Fresh
    (db : Db) (taskId : String) (newStatus : TaskStatus) (part : StoryPart) :
    Prop where
  owns : db.Owns part.story.id taskId
  known : part.story ∈ db.stories
  next : part.next = (db.setTask taskId newStatus).storyDecision part.story

/-- The PBI is still as it was read. -/
structure ReadPbi
    (db : Db) (taskId : String) (newStatus : TaskStatus) (part : StoryPart)
    (pbi : PbiRow) :
    Prop where
  story : part.Fresh db taskId newStatus
  known : pbi ∈ db.pbis
  parent : pbi.id = part.story.pbiId

/-- And so is the decision about it. -/
structure PbiPart.Fresh
    (db : Db) (taskId : String) (newStatus : TaskStatus) (part : PbiPart) :
    Prop where
  read : ReadPbi db taskId newStatus part.toStoryPart part.pbi
  next : part.nextPbi = decidePbiStatus
    ((db.setStory part.story.id part.toStoryPart.next).storyStatuses part.pbi.id)
      part.pbi.status

/-- What a call has read is still so. -/
def Call.Fresh (db : Db) (call : Call) : Prop :=
  match call.stage with
  | .called => True
  | .updated storyId => db.Owns storyId call.taskId
  | .siblingsRead storyId siblings =>
      db.Owns storyId call.taskId ∧
        siblings = (db.setTask call.taskId call.newStatus).taskStatuses storyId
  | .storyRead part => part.Fresh db call.taskId call.newStatus
  | .storySettled part => part.Fresh db call.taskId call.newStatus
  | .pbiRead part pbi => ReadPbi db call.taskId call.newStatus part pbi
  | .storiesRead part => part.Fresh db call.taskId call.newStatus
  | .pbiSettled part => part.Fresh db call.taskId call.newStatus
  | .sprintRead part _ => part.Fresh db call.taskId call.newStatus
  | .sprintStoriesRead part _ _ => part.Fresh db call.taskId call.newStatus
  | .sprintPbisRead part _ _ => part.Fresh db call.taskId call.newStatus
  | .settled part _ => part.Fresh db call.taskId call.newStatus

/-- What every state of an undisturbed run satisfies. -/
structure Sound (world : World) : Prop where
  keyed : world.db.Keyed
  agreeing : world.db.Agreeing
  fresh : ∀ call ∈ world.calls, call.Fresh world.db

variable {db db' : Db} {world : World} {call other : Call}

/-! ## Writing a row -/

theorem Db.Keyed.task (keyed : db.Keyed) {first second : TaskRow} (firstMember : first ∈ db.tasks)
    (secondMember : second ∈ db.tasks) (same : first.id = second.id) :
    first = second :=
  List.inj_on_of_nodup_map keyed.tasks firstMember secondMember same

theorem Db.Keyed.story
    (keyed : db.Keyed) {first second : StoryRow} (firstMember : first ∈ db.stories)
    (secondMember : second ∈ db.stories) (same : first.id = second.id) :
    first = second :=
  List.inj_on_of_nodup_map keyed.stories firstMember secondMember same

theorem Db.Keyed.pbi (keyed : db.Keyed) {first second : PbiRow} (firstMember : first ∈ db.pbis)
    (secondMember : second ∈ db.pbis) (same : first.id = second.id) :
    first = second :=
  List.inj_on_of_nodup_map keyed.pbis firstMember secondMember same

/-- A write to tasks, seen among the tasks of a story. -/
theorem filter_setTask (db : Db) (id storyId : String) (status : TaskStatus) :
    (db.setTask id status).tasks.filter (·.storyId = storyId) =
      updateWhere (·.id = id) (fun row => { row with status := status })
        (db.tasks.filter (·.storyId = storyId)) :=
  @filter_updateWhere _ _ _ (fun row : TaskRow => { row with status := status })
    (fun _ => rfl) db.tasks

/-- A write to stories, seen among the stories of a PBI. -/
theorem filter_setStory (db : Db) (id pbiId : String) (status : StoryStatus) :
    (db.setStory id status).stories.filter (·.pbiId = pbiId) =
      updateWhere (·.id = id) (fun row => { row with status := status })
        (db.stories.filter (·.pbiId = pbiId)) :=
  @filter_updateWhere _ _ _ (fun row : StoryRow => { row with status := status })
    (fun _ => rfl) db.stories

variable {id : String}

/-- The tasks of a story do not see a write that leaves each of them as it is. -/
theorem filter_setTask_unmoved {storyId : String} {status : TaskStatus}
    (unmoved : ∀ task ∈ db.tasks, task.id = id → task.storyId = storyId → task.status = status) :
    (db.setTask id status).tasks.filter (·.storyId = storyId) =
      db.tasks.filter (·.storyId = storyId) := by
  rw [filter_setTask]
  refine updateWhere_eq_self fun task member found => ?_
  rw [List.mem_filter] at member
  have same := unmoved task member.1 (of_decide_eq_true found) (of_decide_eq_true member.2)
  rw [← same]

variable {status : StoryStatus}

/-- Nor do the stories of a PBI. -/
theorem filter_setStory_unmoved {pbiId : String}
    (unmoved : ∀ story ∈ db.stories, story.id = id → story.pbiId = pbiId → story.status = status) :
    (db.setStory id status).stories.filter (·.pbiId = pbiId) =
      db.stories.filter (·.pbiId = pbiId) := by
  rw [filter_setStory]
  refine updateWhere_eq_self fun story member found => ?_
  rw [List.mem_filter] at member
  have same := unmoved story member.1 (of_decide_eq_true found) (of_decide_eq_true member.2)
  rw [← same]

/-- Where the tasks of a story are the same, they are so after the same write. -/
theorem taskStatuses_setTask {storyId : String} {status : TaskStatus}
    (same : db'.tasks.filter (·.storyId = storyId) = db.tasks.filter (·.storyId = storyId)) :
    (db'.setTask id status).taskStatuses storyId = (db.setTask id status).taskStatuses storyId := by
  unfold Db.taskStatuses
  rw [filter_setTask, filter_setTask, same]

theorem storyStatuses_setStory {pbiId : String}
    (same : db'.stories.filter (·.pbiId = pbiId) = db.stories.filter (·.pbiId = pbiId)) :
    (db'.setStory id status).storyStatuses pbiId = (db.setStory id status).storyStatuses pbiId := by
  unfold Db.storyStatuses
  rw [filter_setStory, filter_setStory, same]

theorem mem_setStory {story : StoryRow} (member : story ∈ db.stories)
    (unmoved : story.id = id → story.status = status) :
    story ∈ (db.setStory id status).stories := by
  by_cases found : story.id = id
  · refine mem_updateWhere.mpr (.inl ⟨story, member, decide_eq_true found, ?_⟩)
    rw [← unmoved found]
  · exact mem_updateWhere.mpr (.inr ⟨member, decide_eq_false found⟩)

theorem mem_setPbi {pbi : PbiRow} {status : PbiStatus} (member : pbi ∈ db.pbis)
    (unmoved : pbi.id = id → pbi.status = status) :
    pbi ∈ (db.setPbi id status).pbis := by
  by_cases found : pbi.id = id
  · refine mem_updateWhere.mpr (.inl ⟨pbi, member, decide_eq_true found, ?_⟩)
    rw [← unmoved found]
  · exact mem_updateWhere.mpr (.inr ⟨member, decide_eq_false found⟩)

theorem setStory_self (keyed : db.Keyed) {story : StoryRow} (known : story ∈ db.stories) :
    (db.setStory story.id story.status).stories = db.stories := by
  refine updateWhere_eq_self fun row member found => ?_
  rw [keyed.story member known (of_decide_eq_true found)]

theorem setPbi_self (keyed : db.Keyed) {pbi : PbiRow} (known : pbi ∈ db.pbis) :
    (db.setPbi pbi.id pbi.status).pbis = db.pbis := by
  refine updateWhere_eq_self fun row member found => ?_
  rw [keyed.pbi member known (of_decide_eq_true found)]

/-! ## A call reads on -/

/-- What a call sees of the stories, once it has settled its own. -/
theorem StoryPart.Fresh.stories
    {part : StoryPart} {taskId : String} {newStatus : TaskStatus} (keyed : db.Keyed)
    (fresh : part.Fresh db taskId newStatus) :
    (part.write.elim db fun write => db.setStory write.1 write.2).stories =
      (db.setStory part.story.id part.next).stories := by
  unfold StoryPart.write
  split
  · rename_i same
    rw [same]
    exact (setStory_self keyed fresh.known).symm
  · rfl

theorem PbiPart.Fresh.pbis
    {part : PbiPart} {taskId : String} {newStatus : TaskStatus} (keyed : db.Keyed)
    (fresh : part.Fresh db taskId newStatus) :
    (part.pbiWrite.elim db fun write => db.setPbi write.1 write.2).pbis =
      (db.setPbi part.pbi.id part.nextPbi).pbis := by
  unfold PbiPart.pbiWrite
  split
  · rename_i same
    rw [same]
    exact (setPbi_self keyed fresh.read.known).symm
  · rfl

/-- What a call reads with its next statement is so. -/
theorem Call.Fresh.advance {stage : Stage} (keyed : world.db.Keyed) (fresh : call.Fresh world.db)
    (next : world.next? call = some stage) :
    Call.Fresh world.db { call with stage := stage } := by
  obtain ⟨taskId, newStatus, current⟩ := call
  cases current with
  | called =>
    simp only [World.next?, Option.bind_eq_bind, Option.bind_eq_some_iff] at next
    obtain ⟨task, found, decided⟩ := next
    split at decided
    · cases decided
    · cases decided
      have named := List.find?_some found
      exact ⟨task, List.mem_of_find?_eq_some found, of_decide_eq_true named, rfl⟩
  | updated storyId =>
    cases next
    exact ⟨fresh, rfl⟩
  | siblingsRead storyId siblings =>
    simp only [World.next?, Option.bind_eq_bind, Option.bind_eq_some_iff] at next
    obtain ⟨story, found, decided⟩ := next
    cases decided
    obtain ⟨owns, read⟩ := fresh
    have named := List.find?_some found
    obtain rfl : story.id = storyId := of_decide_eq_true named
    refine ⟨owns, List.mem_of_find?_eq_some found, ?_⟩
    rw [read]
    rfl
  | storySettled part =>
    simp only [World.next?, Option.bind_eq_bind, Option.bind_eq_some_iff] at next
    obtain ⟨pbi, found, decided⟩ := next
    cases decided
    have named := List.find?_some found
    exact ⟨fresh, List.mem_of_find?_eq_some found, of_decide_eq_true named⟩
  | pbiRead part pbi =>
    simp only [World.next?] at next
    split at next
    · rename_i blocked
      cases next
      refine ⟨fresh, ?_⟩
      rw [decidePbiStatus, if_pos blocked]
      exact blocked
    · cases next
      refine ⟨fresh, ?_⟩
      have seen := fresh.story.stories keyed
      show decidePbiStatus (List.map _ (List.filter _ _)) _ = _
      unfold Db.storyStatuses
      rw [← seen]
      rfl
  | pbiSettled part =>
    simp only [World.next?] at next
    split at next
    · cases next
      exact fresh
    · simp only [Option.bind_eq_bind, Option.bind_eq_some_iff] at next
      obtain ⟨sprint, -, decided⟩ := next
      cases decided
      exact fresh
  | sprintRead part sprint =>
    cases next
    exact fresh
  | sprintStoriesRead part sprint pbiIds =>
    cases next
    exact fresh
  | settled => cases next
  | _ =>
    simp only [World.next?] at next
    split at next
    · cases next
    · cases next
      exact fresh

/-! ## A call commits -/

/-- The database after the commit of a call with this part. -/
structure Commits
    (db db' : Db) (taskId : String) (newStatus : TaskStatus) (part : PbiPart) :
    Prop where
  tasks : db'.tasks = (db.setTask taskId newStatus).tasks
  stories : db'.stories = (db.setStory part.story.id part.toStoryPart.next).stories
  pbis : db'.pbis = (db.setPbi part.pbi.id part.nextPbi).pbis

variable {taskId : String} {newStatus : TaskStatus} {part : PbiPart}

theorem commits_withWrites {sprint : Option (SprintRow × SprintStatus)} (keyed : db.Keyed)
    (fresh : part.Fresh db taskId newStatus) :
    Commits db (db.withWrites
        { taskId := taskId, newStatus := newStatus, stage := .settled part sprint })
      taskId newStatus part where
  tasks := rfl
  stories := fresh.read.story.stories keyed
  pbis := fresh.pbis keyed

namespace Commits

theorem keyed (commits : Commits db db' taskId newStatus part) (keyed : db.Keyed) : db'.Keyed where
  tasks := by
    have ids : db'.tasks.map (·.id) = db.tasks.map (·.id) := by
      rw [commits.tasks]
      refine map_updateWhere_of_unchanged ?_ db.tasks
      exact fun _ => rfl
    rw [ids]
    exact keyed.tasks
  stories := by
    have ids : db'.stories.map (·.id) = db.stories.map (·.id) := by
      rw [commits.stories]
      refine map_updateWhere_of_unchanged ?_ db.stories
      exact fun _ => rfl
    rw [ids]
    exact keyed.stories
  pbis := by
    have ids : db'.pbis.map (·.id) = db.pbis.map (·.id) := by
      rw [commits.pbis]
      refine map_updateWhere_of_unchanged ?_ db.pbis
      exact fun _ => rfl
    rw [ids]
    exact keyed.pbis

theorem filter_tasks (commits : Commits db db' taskId newStatus part) {storyId : String}
    (unmoved : ∀ task ∈ db.tasks, task.id = taskId → task.storyId = storyId →
      task.status = newStatus) :
    db'.tasks.filter (·.storyId = storyId) = db.tasks.filter (·.storyId = storyId) := by
  rw [commits.tasks]
  exact filter_setTask_unmoved unmoved

theorem filter_stories (commits : Commits db db' taskId newStatus part) {pbiId : String}
    (unmoved : ∀ story ∈ db.stories, story.id = part.story.id → story.pbiId = pbiId →
      story.status = part.toStoryPart.next) :
    db'.stories.filter (·.pbiId = pbiId) = db.stories.filter (·.pbiId = pbiId) := by
  rw [commits.stories]
  exact filter_setStory_unmoved unmoved

theorem decidePbiStatus_of_not_blocked
    {states : List StoryStatus} {first second : PbiStatus} (firstFree : first ≠ .blocked)
    (secondFree : second ≠ .blocked) :
    decidePbiStatus states first = decidePbiStatus states second := by
  rw [decidePbiStatus, decidePbiStatus, if_neg firstFree, if_neg secondFree]

/-- A commit leaves every status as the children decide it. -/
theorem agreeing (commits : Commits db db' taskId newStatus part) (keyed : db.Keyed)
    (agreeing : db.Agreeing) (fresh : part.Fresh db taskId newStatus) :
    db'.Agreeing where
  stories := by
    intro story member
    rw [commits.stories] at member
    rcases mem_updateWhere.mp member with ⟨old, inside, found, rfl⟩ | ⟨inside, missed⟩
    · rw [keyed.story inside fresh.read.story.known (of_decide_eq_true found)]
      refine fresh.read.story.next.trans ?_
      unfold Db.storyDecision Db.taskStatuses
      rw [commits.tasks]
    · rw [agreeing.stories story inside]
      have same := @filter_tasks _ _ _ _ _ commits story.id fun task known named here => by
        obtain ⟨own, ownKnown, ownNamed, ownStory⟩ := fresh.read.story.owns
        rw [keyed.task known ownKnown (named.trans ownNamed.symm)] at here
        exact absurd (here.symm.trans ownStory) (of_decide_eq_false missed)
      unfold Db.storyDecision Db.taskStatuses
      rw [same]
  pbis := by
    intro pbi member free
    rw [commits.pbis] at member
    rcases mem_updateWhere.mp member with ⟨old, inside, found, rfl⟩ | ⟨inside, missed⟩
    · rw [keyed.pbi inside fresh.read.known (of_decide_eq_true found)]
      have decided := fresh.next
      have unblocked : part.pbi.status ≠ .blocked := by
        intro blocked
        rw [decidePbiStatus, if_pos blocked] at decided
        exact free decided
      refine decided.trans ?_
      rw [decidePbiStatus_of_not_blocked unblocked free]
      unfold Db.storyStatuses
      rw [commits.stories]
    · have same := @filter_stories _ _ _ _ _ commits pbi.id fun story known named here => by
        rw [keyed.story known fresh.read.story.known named] at here
        have parent := fresh.read.parent
        exact absurd (here.symm.trans parent.symm) (of_decide_eq_false missed)
      unfold Db.storyStatuses
      rw [same]
      exact agreeing.pbis pbi inside free

/-- A commit that gives no task of the story another status does not change it. -/
theorem story_unmoved (commits : Commits db db' taskId newStatus part) (agreeing : db.Agreeing)
    (fresh : part.Fresh db taskId newStatus)
    (unmoved : ∀ task ∈ db.tasks, task.id = taskId → task.storyId = part.story.id →
      task.status = newStatus) :
    part.story.status = part.toStoryPart.next := by
  rw [fresh.read.story.next, agreeing.stories part.story fresh.read.story.known]
  have same := commits.filter_tasks unmoved
  rw [commits.tasks] at same
  unfold Db.storyDecision Db.taskStatuses
  rw [same]

/-- Nor does one that does not change the story change its PBI. -/
theorem pbi_unmoved
    (keyed : db.Keyed) (agreeing : db.Agreeing) (fresh : part.Fresh db taskId newStatus)
    (unmoved : part.story.status = part.toStoryPart.next) :
    part.pbi.status = part.nextPbi := by
  have decided := fresh.next
  unfold Db.storyStatuses at decided
  rw [← unmoved, setStory_self keyed fresh.read.story.known] at decided
  rw [decided]
  by_cases blocked : part.pbi.status = .blocked
  · rw [decidePbiStatus, if_pos blocked]
    exact blocked
  · exact agreeing.pbis part.pbi fresh.read.known blocked

variable {taskId' : String} {newStatus' : TaskStatus}

theorem owns (commits : Commits db db' taskId newStatus part) {storyId : String}
    (owns : db.Owns storyId taskId') :
    db'.Owns storyId taskId' := by
  obtain ⟨task, member, named, story⟩ := owns
  obtain ⟨task', member', same⟩ := @exists_updateWhere _
    (fun row : TaskRow => decide (row.id = taskId))
    (fun row => { row with status := newStatus }) db.tasks
    (fun row row' => row'.id = row.id ∧ row'.storyId = row.storyId)
    (fun _ => ⟨rfl, rfl⟩) (fun _ => ⟨rfl, rfl⟩) task member
  refine ⟨task', ?_, same.1.trans named, same.2.trans story⟩
  rw [commits.tasks]
  exact member'

theorem storyFresh {other : StoryPart} (commits : Commits db db' taskId newStatus part)
    (keyed : db.Keyed) (agreeing : db.Agreeing) (fresh : part.Fresh db taskId newStatus)
    (unmoved : ∀ task ∈ db.tasks, task.id = taskId → task.storyId = other.story.id →
      task.status = newStatus) (old : other.Fresh db taskId' newStatus') :
    other.Fresh db' taskId' newStatus' where
  owns := commits.owns old.owns
  known := by
    rw [commits.stories]
    refine mem_setStory old.known fun same => ?_
    have equal := keyed.story old.known fresh.read.story.known same
    rw [equal] at unmoved ⊢
    exact commits.story_unmoved agreeing fresh unmoved
  next := by
    rw [old.next]
    unfold Db.storyDecision
    rw [taskStatuses_setTask (commits.filter_tasks unmoved)]

theorem readPbi {other : StoryPart} {pbi : PbiRow} (commits : Commits db db' taskId newStatus part)
    (keyed : db.Keyed) (agreeing : db.Agreeing) (fresh : part.Fresh db taskId newStatus)
    (unmoved : ∀ task ∈ db.tasks, task.id = taskId → task.storyId = other.story.id →
      task.status = newStatus)
    (settled : part.pbi.id = pbi.id → part.story.status = part.toStoryPart.next)
    (old : ReadPbi db taskId' newStatus' other pbi) :
    ReadPbi db' taskId' newStatus' other pbi where
  story := commits.storyFresh keyed agreeing fresh unmoved old.story
  known := by
    rw [commits.pbis]
    refine mem_setPbi old.known fun same => ?_
    rw [keyed.pbi old.known fresh.read.known same]
    exact pbi_unmoved keyed agreeing fresh (settled same.symm)
  parent := old.parent

theorem pbiFresh
    {other : PbiPart} (commits : Commits db db' taskId newStatus part) (keyed : db.Keyed)
    (agreeing : db.Agreeing) (fresh : part.Fresh db taskId newStatus)
    (unmoved : ∀ task ∈ db.tasks, task.id = taskId → task.storyId = other.story.id →
      task.status = newStatus) (settled : part.pbi.id = other.pbi.id →
      part.story.status = part.toStoryPart.next) (old : other.Fresh db taskId' newStatus') :
    other.Fresh db' taskId' newStatus' where
  read := commits.readPbi keyed agreeing fresh unmoved settled old.read
  next := by
    rw [old.next, storyStatuses_setStory (commits.filter_stories ?_)]
    intro story known named here
    rw [keyed.story known fresh.read.story.known named] at here ⊢
    exact settled (fresh.read.parent.trans here)

/-- What another call has read stays so. -/
theorem callFresh (commits : Commits db db' taskId newStatus part) (keyed : db.Keyed)
    (agreeing : db.Agreeing) (fresh : part.Fresh db taskId newStatus)
    (unmoved : ∀ storyId, other.readTasksOf = some storyId →
      ∀ task ∈ db.tasks, task.id = taskId → task.storyId = storyId → task.status = newStatus)
    (settled : ∀ pbiId, other.readPbi = some pbiId → part.pbi.id = pbiId →
      part.story.status = part.toStoryPart.next) (old : other.Fresh db) :
    other.Fresh db' := by
  obtain ⟨otherId, otherStatus, stage⟩ := other
  cases stage with
  | called => trivial
  | updated => exact commits.owns old
  | siblingsRead storyId siblings =>
    refine ⟨commits.owns old.1, old.2.trans ?_⟩
    exact (taskStatuses_setTask (commits.filter_tasks (unmoved storyId rfl))).symm
  | storyRead => exact commits.storyFresh keyed agreeing fresh (unmoved _ rfl) old
  | storySettled => exact commits.storyFresh keyed agreeing fresh (unmoved _ rfl) old
  | pbiRead => exact commits.readPbi keyed agreeing fresh (unmoved _ rfl) (settled _ rfl) old
  | _ => exact commits.pbiFresh keyed agreeing fresh (unmoved _ rfl) (settled _ rfl) old

end Commits

/-! ## Runs -/

theorem sound_execute (world : World) (step : Step) (sound : Sound world)
    (undisturbed : step.Undisturbed world) :
    Sound (execute world step) := by
  obtain ⟨keyed, agreeing, fresh⟩ := sound
  cases step with
  | propagateStatusUpwards taskId newStatus =>
    refine ⟨keyed, agreeing, fun call member => ?_⟩
    rcases mem_inserted.mp member with old | rfl
    · exact fresh call old
    · trivial
  | advance call =>
    unfold execute
    dsimp only
    split
    · rename_i present
      split
      · rename_i stage next
        have advanced := (fresh call present).advance keyed next
        refine ⟨keyed, agreeing, fun other member => ?_⟩
        rcases mem_inserted.mp member with old | rfl
        · exact fresh other (List.mem_of_mem_erase old)
        · exact advanced
      · exact ⟨keyed, agreeing, fresh⟩
    · exact ⟨keyed, agreeing, fresh⟩
  | commit call =>
    unfold execute
    dsimp only
    split
    · rename_i present
      obtain ⟨taskId, newStatus, stage⟩ := call
      cases stage with
      | settled part sprint =>
        have own : part.Fresh world.db taskId newStatus := fresh _ present
        have commits := @commits_withWrites world.db taskId newStatus part sprint keyed own
        obtain ⟨task, known, named, here⟩ := own.read.story.owns
        have quiet := undisturbed task known named
        refine ⟨commits.keyed keyed, commits.agreeing keyed agreeing own, fun other member => ?_⟩
        refine commits.callFresh keyed agreeing own ?_ ?_
          (fresh other (List.mem_of_mem_erase member))
        · intro storyId reads row rowKnown rowNamed rowHere
          obtain rfl := keyed.task rowKnown known (rowNamed.trans named.symm)
          exact (quiet other member).1 (rowHere ▸ reads)
        · intro pbiId reads same
          have decided := (quiet other member).2 part.story own.read.story.known
            here.symm ((own.read.parent.symm.trans same) ▸ reads)
          exact decided.symm.trans own.read.story.next.symm
      | _ => exact ⟨keyed, agreeing, fresh⟩
    · exact ⟨keyed, agreeing, fresh⟩
  | rollback call =>
    exact ⟨keyed, agreeing, fun other member => fresh other (List.mem_of_mem_erase member)⟩

/-- While no propagation disturbs what another has read, every status is what its
children decide, whenever calls commit. -/
theorem propagation_agrees (db : Db) (keyed : db.Keyed) (agreeing : db.Agreeing) (steps : List Step)
    (undisturbed : EveryStep execute (fun world step => step.Undisturbed world)
      (World.initial db) steps)
    (earlier : List Step) (isPrefix : earlier <+: steps) :
    (run execute (World.initial db) earlier).db.Agreeing := by
  have kept := @run_invariant _ _ execute _ Sound sound_execute _ earlier
    ⟨keyed, agreeing, List.forall_mem_nil _⟩
    (undisturbed.of_prefix isPrefix)
  exact kept.agreeing

namespace PropagationRuns

/-- Two stories of one PBI, in no sprint, with two open tasks in the first. -/
def board : Db where
  tasks :=
    [{ id := "t1", storyId := "s1", status := .toDo },
      { id := "t2", storyId := "s1", status := .toDo },
      { id := "t3", storyId := "s2", status := .toDo }]
  stories :=
    [{ id := "s1", pbiId := "p", sprintId := none, status := .opened },
      { id := "s2", pbiId := "p", sprintId := none, status := .opened }]
  pbis := [{ id := "p", status := .ready }]
  sprints := []

/-- The call that has waited longest takes a turn: one statement, or its commit. -/
def turn (world : World) : Step :=
  match world.calls.head? with
  | some call =>
      if call.result?.isSome then .commit call else .advance call
  | none => .rollback { taskId := "", newStatus := .toDo, stage := .called }

/-- So many turns. -/
def turns (world : World) : Nat → List Step
  | 0 => []
  | count + 1 => turn world :: turns (execute world (turn world)) count

/-- These tasks are set to `DONE`, the calls taking turns. -/
def together (world : World) (taskIds : List String) : List Step :=
  let begun := taskIds.map fun taskId => .propagateStatusUpwards taskId .done
  begun ++ turns (run execute world begun) (9 * taskIds.length)

/-- These tasks are set to `DONE`, one after the other. -/
def oneByOne (world : World) : List String → List Step
  | [] => []
  | taskId :: rest =>
      together world [taskId] ++
        oneByOne (run execute world (together world [taskId])) rest

def start : World := World.initial board

/-- The last two open tasks of the first story. -/
def lastTwo : World := run execute start (together start ["t1", "t2"])

/-- The last open tasks of two stories. -/
def lastOfTwo : World :=
  let first := run execute start (oneByOne start ["t1"])
  run execute first (together first ["t2", "t3"])

end PropagationRuns

open PropagationRuns in
/-- All tasks are set to `DONE`, one after the other. -/
theorem propagation_agrees_one_by_one :
    (run execute start (oneByOne start ["t1", "t2", "t3"])).db.Agreeing ∧
      (run execute start (oneByOne start ["t1", "t2", "t3"])).db.pbis =
        [{ id := "p", status := .done }] :=
  ⟨propagation_agrees board (by decide) (by decide)
      (oneByOne start ["t1", "t2", "t3"]) (by decide +kernel)
      (oneByOne start ["t1", "t2", "t3"]) List.prefix_rfl,
    by decide +kernel⟩

open PropagationRuns in
/-- Of two calls that read before either commits, neither sees the other: a story
whose tasks are all done stays open, and so does a PBI whose stories are all done. -/
theorem propagation_lost :
    (board.Keyed ∧ board.Agreeing) ∧ (lastTwo.calls = [] ∧ lastTwo.results.length = 2 ∧
        lastTwo.db.taskStatuses "s1" = [.done, .done] ∧
          (lastTwo.db.story? "s1").map (·.status) = some .opened) ∧
        lastOfTwo.calls = [] ∧ lastOfTwo.results.length = 3 ∧
          lastOfTwo.db.storyStatuses "p" = [.done, .done] ∧
            (lastOfTwo.db.pbi? "p").map (·.status) = some .ready ∧
              ¬ lastTwo.db.Agreeing ∧ ¬ lastOfTwo.db.Agreeing := by
  decide +kernel

end Hierarchy
end Scrum4Me
