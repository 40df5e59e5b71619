import Scrum4Me.Hierarchy.Agreement

/-!
# One propagation after another

`propagateStatusUpwards` as one function, for a call that has the database to
itself. It is what such a call of the machine commits, and what the machine's calls
keep it keeps.
-/

namespace Scrum4Me
namespace Hierarchy

open Foundation
open Jobs (TaskStatus StoryStatus PbiStatus SprintStatus)

/-! ## The call -/

namespace Db

variable (db : Db)

/-- The PBIs that have a story in the sprint. -/
def sprintPbis (sprintId : String) : List PbiRow :=
  let pbiIds := (db.stories.filter (·.sprintId = some sprintId)).map (·.pbiId)
  db.pbis.filter (·.id ∈ pbiIds)

/-- What the PBIs of a sprint decide. -/
def sprintDecision (sprintId : String) : SprintStatus :=
  decideSprintStatus ((db.sprintPbis sprintId).map (·.status))

def settleStory (story : StoryRow) : Db :=
  let next := db.storyDecision story
  if next = story.status then db else db.setStory story.id next

def settlePbi (pbi : PbiRow) : Db :=
  -- A blocked PBI is left alone.
  if pbi.status = .blocked then db
  else
    let next := decidePbiStatus (db.storyStatuses pbi.id) pbi.status
    if next = pbi.status then db else db.setPbi pbi.id next

def settleSprint (sprint : SprintRow) : Db :=
  let next := db.sprintDecision sprint.id
  if next = sprint.status then db else db.setSprint sprint.id next

/-- The database after the call; none if the call finds no row and throws. -/
def propagateStatusUpwards (taskId : String) (newStatus : TaskStatus) : Option Db := do
  let updated := db.setTask taskId newStatus
  let task ← updated.task? taskId
  let story ← updated.story? task.storyId
  let storySettled := updated.settleStory story
  let pbi ← storySettled.pbi? story.pbiId
  let pbiSettled := storySettled.settlePbi pbi
  -- Only the sprint of this story is decided anew.
  story.sprintId.elim (some pbiSettled) fun sprintId => do
    let sprint ← pbiSettled.sprint? sprintId
    return pbiSettled.settleSprint sprint

end Db

/-- The arguments of a call. -/
structure Change where
  taskId : String
  newStatus : TaskStatus
  deriving DecidableEq

/-- A call that throws is rolled back. -/
def perform (db : Db) (change : Change) : Db :=
  (db.propagateStatusUpwards change.taskId change.newStatus).getD db

/-- The keys of the tables, and the foreign keys. -/
structure Db.Whole (db : Db) : Prop where
  keyed : db.Keyed
  sprints : (db.sprints.map (·.id)).Nodup
  taskStory : ∀ task ∈ db.tasks, ∃ story ∈ db.stories, story.id = task.storyId
  storyPbi : ∀ story ∈ db.stories, ∃ pbi ∈ db.pbis, pbi.id = story.pbiId
  storySprint : ∀ story ∈ db.stories, ∀ sprintId ∈ story.sprintId,
    ∃ sprint ∈ db.sprints, sprint.id = sprintId

instance (db : Db) : Decidable db.Whole :=
  decidable_of_iff (db.Keyed ∧ (db.sprints.map (·.id)).Nodup ∧
      (∀ task ∈ db.tasks, ∃ story ∈ db.stories, story.id = task.storyId) ∧
        (∀ story ∈ db.stories, ∃ pbi ∈ db.pbis, pbi.id = story.pbiId) ∧
          ∀ story ∈ db.stories, ∀ sprintId ∈ story.sprintId,
            ∃ sprint ∈ db.sprints, sprint.id = sprintId)
    ⟨fun whole => ⟨whole.1, whole.2.1, whole.2.2.1, whole.2.2.2.1, whole.2.2.2.2⟩,
      fun whole => ⟨whole.keyed, whole.sprints, whole.taskStory, whole.storyPbi,
        whole.storySprint⟩⟩

variable {db db' : Db} {taskId : String} {newStatus : TaskStatus} {part : PbiPart}

/-! ## What a call writes -/

/-- What a call decides about the PBI of a story of its task. -/
def Db.newPbiStatus (db : Db) (taskId : String) (newStatus : TaskStatus) (story : StoryRow)
    (pbi : PbiRow) :
    PbiStatus :=
  let updated := db.setTask taskId newStatus
  decidePbiStatus ((updated.setStory story.id (updated.storyDecision story)).storyStatuses pbi.id)
      pbi.status

/-- A call that has settled this PBI of this story. -/
def Db.settling (db : Db) (taskId : String) (newStatus : TaskStatus) (story : StoryRow)
    (pbi : PbiRow) :
    PbiPart where
  story := story
  next := (db.setTask taskId newStatus).storyDecision story
  pbi := pbi
  nextPbi := db.newPbiStatus taskId newStatus story pbi

theorem settleStory_eq_withWrites (db : Db) (story : StoryRow) :
    (db.setTask taskId newStatus).settleStory story = db.withWrites
        { taskId := taskId
          newStatus := newStatus
          stage := .storySettled
            { story := story
              next := (db.setTask taskId newStatus).storyDecision story } } := by
  unfold Db.settleStory Db.withWrites
  dsimp only [Call.storyWrite, Call.taskWrite, Call.pbiWrite, Call.sprintWrite, StoryPart.write]
  split <;> rfl

variable {story : StoryRow} {pbi : PbiRow} {task : TaskRow}

/-- What a call settles is what it has read, as long as nothing else is written. -/
theorem settling_fresh (taskKnown : task ∈ db.tasks)
    (named : task.id = taskId) (storyKnown : story ∈ db.stories)
    (owner : story.id = task.storyId) (pbiKnown : pbi ∈ db.pbis) (parent : pbi.id = story.pbiId) :
    (db.settling taskId newStatus story pbi).Fresh db taskId newStatus where
  read :=
    { story := ⟨⟨task, taskKnown, named, owner.symm⟩, storyKnown, rfl⟩
      known := pbiKnown
      parent := parent }
  next := rfl

/-- The database with the story and the PBI settled. -/
def PbiPart.written (part : PbiPart) (db : Db) (taskId : String) (newStatus : TaskStatus) :
    Db :=
  db.withWrites { taskId := taskId, newStatus := newStatus, stage := .pbiSettled part }

theorem settlePbi_eq_written (keyed : db.Keyed)
    (fresh : (db.settling taskId newStatus story pbi).Fresh db taskId newStatus) :
    ((db.setTask taskId newStatus).settleStory story).settlePbi pbi =
      (db.settling taskId newStatus story pbi).written db taskId newStatus := by
  have stories := fresh.read.story.stories keyed
  rw [settleStory_eq_withWrites]
  have decided : decidePbiStatus ((db.withWrites
        { taskId := taskId
          newStatus := newStatus
          stage := .storySettled
            { story := story
              next := (db.setTask taskId newStatus).storyDecision story }
          }).storyStatuses pbi.id)
      pbi.status = db.newPbiStatus taskId newStatus story pbi := by
    unfold Db.newPbiStatus Db.storyStatuses
    exact congrArg (fun rows : List StoryRow => decidePbiStatus
      ((rows.filter (·.pbiId = pbi.id)).map (·.status)) pbi.status) stories
  unfold Db.settlePbi
  rw [decided]
  split
  · rename_i blocked
    have kept : db.newPbiStatus taskId newStatus story pbi = pbi.status := by
      unfold Db.newPbiStatus
      rw [decidePbiStatus, if_pos blocked, blocked]
    unfold PbiPart.written Db.withWrites
    dsimp only [Call.storyWrite, Call.taskWrite, Call.pbiWrite, Call.sprintWrite,
      PbiPart.pbiWrite, Db.settling]
    rw [if_pos kept]
  · unfold PbiPart.written Db.withWrites
    dsimp only [Call.storyWrite, Call.taskWrite, Call.pbiWrite, Call.sprintWrite,
      PbiPart.pbiWrite, Db.settling]
    split <;> rfl

/-- The database with everything settled. -/
def PbiPart.committed (part : PbiPart) (db : Db) (taskId : String) (newStatus : TaskStatus)
    (sprint : Option (SprintRow × SprintStatus)) :
    Db :=
  db.withWrites
    { taskId := taskId, newStatus := newStatus, stage := .settled part sprint }

theorem settleSprint_eq_committed (db : Db) (sprint : SprintRow) :
    (part.written db taskId newStatus).settleSprint sprint = part.committed db taskId newStatus
        (some (sprint, (part.written db taskId newStatus).sprintDecision sprint.id)) := by
  unfold Db.settleSprint
  generalize (part.written db taskId newStatus).sprintDecision sprint.id = next
  unfold PbiPart.written PbiPart.committed Db.withWrites
  dsimp only [Call.storyWrite, Call.taskWrite, Call.pbiWrite, Call.sprintWrite]
  split <;> rfl

/-- The sprint of the story, and what its PBIs decide now. -/
def PbiPart.sprintPart (part : PbiPart) (db : Db) (taskId : String) (newStatus : TaskStatus) :
    Option (SprintRow × SprintStatus) :=
  (part.story.sprintId.bind db.sprint?).map fun sprint =>
    (sprint, (part.written db taskId newStatus).sprintDecision sprint.id)

theorem task?_setTask (keyed : db.Keyed) (known : task ∈ db.tasks) (named : task.id = taskId) :
    (db.setTask taskId newStatus).task? taskId = some { task with status := newStatus } := by
  refine find?_eq_some_of_unique ?_ (decide_eq_true named) ?_
  · exact mem_updateWhere.mpr (.inl ⟨task, known, decide_eq_true named, rfl⟩)
  · intro other member found
    rcases mem_updateWhere.mp member with ⟨old, inside, matched, rfl⟩ | ⟨inside, missed⟩
    · rw [keyed.task inside known ((of_decide_eq_true matched).trans named.symm)]
    · exact absurd (of_decide_eq_true found) (of_decide_eq_false missed)

theorem story?_eq (keyed : db.Keyed) (known : story ∈ db.stories) :
    db.story? story.id = some story :=
  find?_eq_some_of_unique known (decide_eq_true rfl) fun _ member found =>
    keyed.story member known (of_decide_eq_true found)

theorem pbi?_eq (keyed : db.Keyed) (known : pbi ∈ db.pbis) : db.pbi? pbi.id = some pbi :=
  find?_eq_some_of_unique known (decide_eq_true rfl) fun _ member found =>
    keyed.pbi member known (of_decide_eq_true found)

theorem sprint?_eq {sprint : SprintRow} (distinct : (db.sprints.map (·.id)).Nodup)
    (known : sprint ∈ db.sprints) :
    db.sprint? sprint.id = some sprint :=
  find?_eq_some_of_unique known (decide_eq_true rfl) fun _ member found =>
    List.inj_on_of_nodup_map distinct member known (of_decide_eq_true found)

/-- Nothing is found for a task that is not there. -/
theorem task?_setTask_of_unknown (unknown : ∀ task ∈ db.tasks, task.id ≠ taskId) :
    (db.setTask taskId newStatus).task? taskId = none := by
  refine List.find?_eq_none.mpr fun task member => ?_
  rw [decide_eq_true_eq]
  rcases mem_updateWhere.mp member with ⟨old, inside, -, rfl⟩ | ⟨inside, -⟩
  · exact unknown old inside
  · exact unknown task inside

theorem propagate_of_unknown (unknown : ∀ task ∈ db.tasks, task.id ≠ taskId) :
    db.propagateStatusUpwards taskId newStatus = none := by
  unfold Db.propagateStatusUpwards
  dsimp only
  rw [task?_setTask_of_unknown unknown]
  rfl

/-- The sprint of a story is there, and is settled. -/
theorem elim_sprint_eq (whole : db.Whole) (known : part.story ∈ db.stories) :
    (part.story.sprintId.elim (some (part.written db taskId newStatus)) fun sprintId =>
      ((part.written db taskId newStatus).sprint? sprintId).bind fun sprint =>
        some ((part.written db taskId newStatus).settleSprint sprint)) =
      some (part.committed db taskId newStatus (part.sprintPart db taskId newStatus)) := by
  unfold PbiPart.sprintPart
  cases inSprint : part.story.sprintId with
  | none => rfl
  | some sprintId =>
    obtain ⟨sprint, sprintKnown, rfl⟩ := whole.storySprint _ known sprintId inSprint
    have found := sprint?_eq whole.sprints sprintKnown
    have foundLater : (part.written db taskId newStatus).sprint? sprint.id = some sprint := found
    rw [Option.elim_some, Option.bind_some, found, foundLater, Option.bind_some,
      settleSprint_eq_committed]
    rfl

/-- A call for a task that is there settles its story, the PBI and the sprint. -/
theorem propagate_eq (whole : db.Whole) (taskKnown : task ∈ db.tasks) (named : task.id = taskId)
    (storyKnown : story ∈ db.stories) (owner : story.id = task.storyId)
    (pbiKnown : pbi ∈ db.pbis) (parent : pbi.id = story.pbiId) :
    db.propagateStatusUpwards taskId newStatus =
      some ((db.settling taskId newStatus story pbi).committed db taskId newStatus
        ((db.settling taskId newStatus story pbi).sprintPart db taskId newStatus)) := by
  have fresh : (db.settling taskId newStatus story pbi).Fresh db taskId newStatus :=
    settling_fresh taskKnown named storyKnown owner pbiKnown parent
  have storyFound : (db.setTask taskId newStatus).story? task.storyId = some story := by
    rw [← owner]
    exact (story?_eq whole.keyed storyKnown :)
  have pbiFound : ((db.setTask taskId newStatus).settleStory story).pbi? story.pbiId =
      some pbi := by
    rw [settleStory_eq_withWrites, ← parent]
    exact (pbi?_eq whole.keyed pbiKnown :)
  unfold Db.propagateStatusUpwards
  dsimp only [Option.bind_eq_bind]
  rw [task?_setTask whole.keyed taskKnown named, Option.bind_some, storyFound,
    Option.bind_some, pbiFound, Option.bind_some,
    settlePbi_eq_written whole.keyed fresh]
  exact elim_sprint_eq whole fresh.read.story.known

/-- A call changes nothing, or commits all it has settled. -/
theorem perform_cases (whole : db.Whole) (change : Change) :
    ((∀ task ∈ db.tasks, task.id ≠ change.taskId) ∧ perform db change = db) ∨
      ∃ part : PbiPart, part.Fresh db change.taskId change.newStatus ∧
        perform db change = part.committed db change.taskId change.newStatus
          (part.sprintPart db change.taskId change.newStatus) := by
  by_cases unknown : ∀ task ∈ db.tasks, task.id ≠ change.taskId
  · refine .inl ⟨unknown, ?_⟩
    rw [perform, propagate_of_unknown unknown]
    rfl
  · push Not at unknown
    obtain ⟨task, taskKnown, named⟩ := unknown
    obtain ⟨story, storyKnown, owner⟩ := whole.taskStory task taskKnown
    obtain ⟨pbi, pbiKnown, parent⟩ := whole.storyPbi story storyKnown
    refine .inr ⟨_, settling_fresh taskKnown named storyKnown owner pbiKnown parent, ?_⟩
    rw [perform, propagate_eq whole taskKnown named storyKnown owner pbiKnown parent]
    rfl

/-! ## A call of the machine that is alone -/

/-- A world with this one call. -/
def World.lone (db : Db) (call : Call) (results : List PropagationResult) : World where
  db := db
  calls := [call]
  results := results

/-- A call that is alone gets from one stage to another. -/
def Leads (db : Db) (taskId : String) (newStatus : TaskStatus) (first last : Stage) : Prop :=
  ∃ steps, ∀ results, run execute (World.lone db ⟨taskId, newStatus, first⟩ results) steps =
    World.lone db ⟨taskId, newStatus, last⟩ results

variable {first second third : Stage} {call : Call} {results : List PropagationResult}

@[simp]
theorem World.lone_db : (World.lone db call results).db = db := rfl

/-- Nobody else holds a row. -/
@[simp]
theorem not_locked_lone {write : Call → Option (String × ν)} {id : String} :
    ¬ (World.lone db call results).Locked call write id := by
  simp [World.Locked, World.lone]

theorem Leads.next (before : Leads db taskId newStatus first second)
    (next : ∀ results, (World.lone db ⟨taskId, newStatus, second⟩ results).next?
      ⟨taskId, newStatus, second⟩ = some third) :
    Leads db taskId newStatus first third := by
  obtain ⟨steps, leads⟩ := before
  refine ⟨steps ++ [.advance ⟨taskId, newStatus, second⟩], fun results => ?_⟩
  have present : ⟨taskId, newStatus, second⟩ ∈
      (World.lone db ⟨taskId, newStatus, second⟩ results).calls := List.mem_cons_self
  rw [run_append, leads, run_cons, run_nil, execute, if_pos present, next]
  simp [World.replaced, World.lone]

/-- It settles its story. -/
theorem leads_storySettled {part : StoryPart} (keyed : db.Keyed)
    (fresh : part.Fresh db taskId newStatus) :
    Leads db taskId newStatus .called (.storySettled part) := by
  obtain ⟨task, taskKnown, named, owner⟩ := fresh.owns
  have taskFound : (db.withWrites ⟨taskId, newStatus, .called⟩).task? taskId = some task :=
    find?_eq_some_of_unique taskKnown (decide_eq_true named) fun _ member found =>
      keyed.task member taskKnown ((of_decide_eq_true found).trans named.symm)
  have updated : Leads db taskId newStatus .called (.updated part.story.id) :=
    Leads.next ⟨[], fun _ => rfl⟩ fun _ => by simp [World.next?, taskFound, owner]
  have siblingsRead : Leads db taskId newStatus .called (.siblingsRead part.story.id
      ((db.setTask taskId newStatus).taskStatuses part.story.id)) := updated.next fun _ => rfl
  have storyRead : Leads db taskId newStatus .called (.storyRead part) := by
    refine siblingsRead.next fun _ => ?_
    show (db.story? part.story.id).bind _ = some (Stage.storyRead ⟨part.story, part.next⟩)
    rw [story?_eq keyed fresh.known, fresh.next]
    rfl
  exact storyRead.next fun _ => by simp [World.next?]

/-- Then the PBI. -/
theorem leads_pbiSettled (keyed : db.Keyed) (fresh : part.Fresh db taskId newStatus)
    (story : Leads db taskId newStatus first (.storySettled part.toStoryPart)) :
    Leads db taskId newStatus first (.pbiSettled part) := by
  have pbiRead : Leads db taskId newStatus first (.pbiRead part.toStoryPart part.pbi) := by
    refine story.next fun _ => ?_
    show (db.pbi? part.story.pbiId).bind _ = _
    rw [← fresh.read.parent, pbi?_eq keyed fresh.read.known]
    rfl
  have decided := fresh.next
  by_cases blocked : part.pbi.status = .blocked
  · refine pbiRead.next fun _ => ?_
    rw [decidePbiStatus, if_pos blocked] at decided
    simp [World.next?, blocked, ← decided]
  · have storiesRead : Leads db taskId newStatus first (.storiesRead part) := by
      refine pbiRead.next fun _ => ?_
      rw [Db.storyStatuses, ← fresh.read.story.stories keyed] at decided
      simp only [World.next?, if_neg blocked]
      show some (Stage.storiesRead ⟨_, _, decidePbiStatus _ _⟩) =
        some (.storiesRead ⟨_, _, part.nextPbi⟩)
      rw [decided]
      rfl
    exact storiesRead.next fun _ => by simp [World.next?]

/-- And the sprint, if there is one. -/
theorem leads_settled (whole : db.Whole) (known : part.story ∈ db.stories)
    (pbi : Leads db taskId newStatus first (.pbiSettled part)) :
    Leads db taskId newStatus first (.settled part (part.sprintPart db taskId newStatus)) := by
  unfold PbiPart.sprintPart
  cases inSprint : part.story.sprintId with
  | none => exact pbi.next fun _ => by simp [World.next?, inSprint]
  | some sprintId =>
    obtain ⟨sprint, sprintKnown, rfl⟩ := whole.storySprint _ known sprintId inSprint
    have found : db.sprint? sprint.id = some sprint := sprint?_eq whole.sprints sprintKnown
    rw [Option.bind_some, found, Option.map_some]
    have sprintRead : Leads db taskId newStatus first (.sprintRead part sprint) := by
      refine pbi.next fun _ => ?_
      simp only [World.next?, inSprint]
      show (db.sprint? sprint.id).bind _ = _
      rw [found]
      rfl
    have storiesRead : Leads db taskId newStatus first (.sprintStoriesRead part sprint
        (((part.written db taskId newStatus).stories.filter
          (·.sprintId = some sprint.id)).map (·.pbiId))) := sprintRead.next fun _ => rfl
    have pbisRead : Leads db taskId newStatus first (.sprintPbisRead part sprint
        ((part.written db taskId newStatus).sprintDecision sprint.id)) :=
      storiesRead.next fun _ => rfl
    exact pbisRead.next fun _ => by simp [World.next?]

/-- What a call does in a world of its own, the machine commits. -/
theorem perform_machine (whole : db.Whole) (change : Change)
    (known : ∃ task ∈ db.tasks, task.id = change.taskId) (results : List PropagationResult) :
    ∃ steps result, run execute { db := db, calls := [], results := results }
        (.propagateStatusUpwards change.taskId change.newStatus :: steps) =
        { db := perform db change, calls := [], results := results ++ [result] } := by
  rcases perform_cases whole change with ⟨unknown, -⟩ | ⟨part, fresh, performed⟩
  · obtain ⟨task, member, named⟩ := known
    exact absurd named (unknown task member)
  · obtain ⟨steps, leads⟩ := leads_settled whole fresh.read.story.known
      (leads_pbiSettled whole.keyed fresh (leads_storySettled whole.keyed fresh.read.story))
    let call : Call :=
      { taskId := change.taskId
        newStatus := change.newStatus
        stage := .settled part (part.sprintPart db change.taskId change.newStatus) }
    have present : call ∈ (World.lone db call results).calls := List.mem_cons_self
    refine ⟨steps ++ [.commit call], ⟨change.taskId, part.story.id, call.storyWrite.isSome,
      call.pbiWrite.isSome, call.sprintWrite.isSome⟩, ?_⟩
    rw [run_cons, run_append]
    change run execute (run execute (World.lone db ⟨change.taskId, change.newStatus, .called⟩
      results) steps) [.commit call] = _
    rw [leads results, run_cons, run_nil, execute, if_pos present, performed]
    dsimp only [Call.result?, World.lone]
    rw [List.erase_cons_head]
    rfl

theorem perform_machine_done : ∃ steps result,
    run execute ⟨⟨[⟨"T", "S", .toDo⟩], [⟨"S", "P", none, .opened⟩], [⟨"P", .ready⟩], []⟩, [], []⟩
        (.propagateStatusUpwards "T" .done :: steps) =
      ⟨⟨[⟨"T", "S", .done⟩], [⟨"S", "P", none, .done⟩], [⟨"P", .done⟩], []⟩, [], [result]⟩ :=
  perform_machine (by decide) ⟨"T", .done⟩ (by decide) []

end Hierarchy
end Scrum4Me
