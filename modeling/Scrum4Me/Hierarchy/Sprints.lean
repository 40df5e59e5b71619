import Scrum4Me.Hierarchy.Sequence

/-!
# Sprints follow their PBIs

A call decides anew about one sprint at most, that of the story of its task; the PBI
that it has given another status may have stories in others. The status of every
sprint stays what its PBIs decide exactly as long as no call moves a PBI between two
statuses that make a difference for another of its sprints.
-/

namespace Scrum4Me
namespace Hierarchy

open Foundation
open Jobs (TaskStatus StoryStatus PbiStatus SprintStatus)

/-- Every status is what the children decide, that of a sprint included. -/
structure Db.Lawful (db : Db) : Prop where
  agreeing : db.Agreeing
  sprints : ∀ sprint ∈ db.sprints, sprint.status = db.sprintDecision sprint.id

instance (db : Db) : Decidable db.Lawful :=
  decidable_of_iff (db.Agreeing ∧
      ∀ sprint ∈ db.sprints, sprint.status = db.sprintDecision sprint.id)
    ⟨fun lawful => ⟨lawful.1, lawful.2⟩,
      fun lawful => ⟨lawful.agreeing, lawful.sprints⟩⟩

/-- The statuses of the other PBIs that have a story in the sprint. -/
def Db.otherStatuses (db : Db) (sprintId pbiId : String) : List PbiStatus :=
  ((db.sprintPbis sprintId).filter (·.id ≠ pbiId)).map (·.status)

/-- Which of the two statuses a PBI has makes no difference among these others: one of
them failed, or one is not done and neither status is `FAILED`. -/
def Indifferent (others : List PbiStatus) (first second : PbiStatus) : Prop :=
  first = second ∨ .failed ∈ others ∨
    (∃ status ∈ others, status ≠ .done) ∧ first ≠ .failed ∧ second ≠ .failed

instance (others : List PbiStatus) (first second : PbiStatus) :
    Decidable (Indifferent others first second) :=
  inferInstanceAs (Decidable (_ ∨ _ ∨ _))

/-- The status that a call gives the PBI of its task makes no difference for any other
sprint with a story of that PBI. -/
def Contained (db : Db) (change : Change) : Prop :=
  ∀ task ∈ db.tasks, task.id = change.taskId →
    ∀ story ∈ db.stories, story.id = task.storyId →
      ∀ pbi ∈ db.pbis, pbi.id = story.pbiId →
        ∀ sprint ∈ db.sprints, story.sprintId ≠ some sprint.id →
          pbi ∈ db.sprintPbis sprint.id →
            Indifferent (db.otherStatuses sprint.id pbi.id) pbi.status
              (db.newPbiStatus change.taskId change.newStatus story pbi)

instance (db : Db) (change : Change) : Decidable (Contained db change) :=
  decidable_of_iff (∀ task ∈ db.tasks.filter fun row : TaskRow => row.id = change.taskId,
      ∀ story ∈ db.stories.filter fun row : StoryRow => row.id = task.storyId,
        ∀ pbi ∈ db.pbis.filter fun row : PbiRow => row.id = story.pbiId,
          ∀ sprint ∈ db.sprints.filter fun row : SprintRow =>
              story.sprintId ≠ some row.id ∧ pbi ∈ db.sprintPbis row.id,
            Indifferent (db.otherStatuses sprint.id pbi.id) pbi.status
              (db.newPbiStatus change.taskId change.newStatus story pbi))
    (by simp [Contained, List.mem_filter])

variable {db db' : Db} {taskId : String} {newStatus : TaskStatus} {part : PbiPart}

/-! ## Decisions -/

/-- A sprint sees which statuses its PBIs have, and no more. -/
theorem decideSprintStatus_congr
    {first second : List PbiStatus} (same : ∀ status, status ∈ first ↔ status ∈ second) :
    decideSprintStatus first = decideSprintStatus second := by
  have empty : first = [] ↔ second = [] := by
    rw [List.eq_nil_iff_forall_not_mem, List.eq_nil_iff_forall_not_mem]
    exact forall_congr' fun status => not_congr (same status)
  unfold decideSprintStatus
  simp only [same, ne_eq, empty]

theorem decidePbiStatus_ne_blocked
    {states : List StoryStatus} {current : PbiStatus} (free : current ≠ .blocked) :
    decidePbiStatus states current ≠ .blocked := by
  rw [decidePbiStatus, if_neg free]
  split
  · decide
  · split <;> decide

variable {others : List PbiStatus}

theorem decideSprintStatus_of_failed (failed : .failed ∈ others) (status : PbiStatus) :
    decideSprintStatus (status :: others) = .failed :=
  if_pos (List.mem_cons_of_mem _ failed)

theorem decideSprintStatus_failed (others : List PbiStatus) :
    decideSprintStatus (.failed :: others) = .failed :=
  if_pos List.mem_cons_self

theorem decideSprintStatus_open {status : PbiStatus} (unfailed : .failed ∉ others)
    (own : status ≠ .failed) (waiting : ∃ other ∈ others, other ≠ .done) :
    decideSprintStatus (status :: others) = .opened := by
  obtain ⟨other, member, undone⟩ := waiting
  have none : .failed ∉ status :: others := by
    rw [List.mem_cons, not_or]
    exact ⟨fun same => own same.symm, unfailed⟩
  rw [decideSprintStatus, if_neg none, if_neg]
  exact fun all => undone (all.2 other (List.mem_cons_of_mem _ member))

/-- Among others that are done the status of a PBI decides alone. -/
theorem decideSprintStatus_of_done (done : ∀ other ∈ others, other = .done) (status : PbiStatus) :
    decideSprintStatus (status :: others) =
      if status = .failed then .failed else if status = .done then .closed else .opened := by
  have failed : .failed ∈ status :: others ↔ status = .failed := by
    rw [List.mem_cons]
    constructor
    · rintro (same | inside)
      · exact same.symm
      · cases done _ inside
    · exact fun same => .inl same.symm
  have closed : (status :: others ≠ [] ∧ ∀ other ∈ status :: others, other = .done) ↔
      status = .done := by
    constructor
    · exact fun all => all.2 status List.mem_cons_self
    · rintro rfl
      exact ⟨List.cons_ne_nil _ _, List.forall_mem_cons.mpr ⟨rfl, done⟩⟩
  unfold decideSprintStatus
  simp only [failed, closed]

/-- Two statuses of a PBI that is not blocked decide the same about a sprint exactly if
they make no difference among the others. -/
theorem decideSprintStatus_cons_eq_iff {first second : PbiStatus} (firstFree : first ≠ .blocked)
    (secondFree : second ≠ .blocked) :
    decideSprintStatus (first :: others) = decideSprintStatus (second :: others) ↔
      Indifferent others first second := by
  by_cases failed : .failed ∈ others
  · rw [decideSprintStatus_of_failed failed, decideSprintStatus_of_failed failed]
    exact ⟨fun _ => .inr (.inl failed), fun _ => rfl⟩
  · by_cases waiting : ∃ other ∈ others, other ≠ .done
    · constructor
      · intro same
        by_cases equal : first = second
        · exact .inl equal
        · refine .inr (.inr ⟨waiting, ?_, ?_⟩)
          · rintro rfl
            rw [decideSprintStatus_failed,
              decideSprintStatus_open failed (fun own => equal own.symm) waiting] at same
            cases same
          · rintro rfl
            rw [decideSprintStatus_failed,
              decideSprintStatus_open failed (fun own => equal own) waiting] at same
            cases same
      · rintro (rfl | inside | ⟨-, firstUnfailed, secondUnfailed⟩)
        · rfl
        · exact absurd inside failed
        · rw [decideSprintStatus_open failed firstUnfailed waiting,
            decideSprintStatus_open failed secondUnfailed waiting]
    · have done : ∀ other ∈ others, other = .done := by
        push Not at waiting
        exact waiting
      rw [decideSprintStatus_of_done done, decideSprintStatus_of_done done]
      constructor
      · intro same
        refine .inl ?_
        cases first <;> cases second <;>
          first
          | rfl
          | exact absurd rfl firstFree
          | exact absurd rfl secondFree
          | exact absurd same (by decide)
      · rintro (rfl | inside | ⟨inside, -, -⟩)
        · rfl
        · exact absurd inside failed
        · exact absurd inside waiting

/-! ## A call and the sprints -/

variable {sprintId : String}

theorem mem_sprintPbis {pbi : PbiRow} :
    pbi ∈ db.sprintPbis sprintId ↔ pbi ∈ db.pbis ∧
        ∃ story ∈ db.stories, story.sprintId = some sprintId ∧ story.pbiId = pbi.id := by
  unfold Db.sprintPbis
  dsimp only
  rw [List.mem_filter, decide_eq_true_eq, List.mem_map]
  refine and_congr_right fun _ => exists_congr fun story => ?_
  rw [List.mem_filter, decide_eq_true_eq, and_assoc]

/-- A sprint is decided by any one of its PBIs and the others. -/
theorem sprintDecision_of_mem {pbi : PbiRow} (keyed : db.Keyed)
    (member : pbi ∈ db.sprintPbis sprintId) :
    db.sprintDecision sprintId =
      decideSprintStatus (pbi.status :: db.otherStatuses sprintId pbi.id) := by
  refine decideSprintStatus_congr fun status => ?_
  unfold Db.otherStatuses
  rw [List.mem_cons, List.mem_map, List.mem_map]
  constructor
  · rintro ⟨row, inside, rfl⟩
    by_cases same : row.id = pbi.id
    · rw [keyed.pbi (mem_sprintPbis.mp inside).1 (mem_sprintPbis.mp member).1 same]
      exact .inl rfl
    · exact .inr ⟨row, List.mem_filter.mpr ⟨inside, decide_eq_true same⟩, rfl⟩
  · rintro (rfl | ⟨row, inside, rfl⟩)
    · exact ⟨pbi, member, rfl⟩
    · exact ⟨row, (List.mem_filter.mp inside).1, rfl⟩

namespace Commits

/-- The PBIs of a sprint stay its PBIs. -/
theorem sprintPbis (commits : Commits db db' taskId newStatus part) (sprintId : String) :
    db'.sprintPbis sprintId =
      updateWhere (·.id = part.pbi.id) (fun row => { row with status := part.nextPbi })
        (db.sprintPbis sprintId) := by
  have members : (db'.stories.filter (·.sprintId = some sprintId)).map (·.pbiId) =
      (db.stories.filter (·.sprintId = some sprintId)).map (·.pbiId) := by
    have filtered := @filter_updateWhere _ (·.id = part.story.id) (·.sprintId = some sprintId)
      (fun row : StoryRow => { row with status := part.toStoryPart.next })
      (fun _ => rfl) db.stories
    rw [commits.stories]
    refine (congrArg (List.map (·.pbiId)) filtered).trans ?_
    refine map_updateWhere_of_unchanged ?_ _
    exact fun _ => rfl
  unfold Db.sprintPbis
  dsimp only
  rw [members, commits.pbis]
  exact @filter_updateWhere _ _ _
    (fun row : PbiRow => { row with status := part.nextPbi }) (fun _ => rfl) db.pbis

theorem otherStatuses (commits : Commits db db' taskId newStatus part) (sprintId : String) :
    db'.otherStatuses sprintId part.pbi.id = db.otherStatuses sprintId part.pbi.id := by
  unfold Db.otherStatuses
  rw [commits.sprintPbis, @filter_updateWhere _ _ _
    (fun row : PbiRow => { row with status := part.nextPbi }) (fun _ => rfl)]
  refine congrArg (fun rows : List PbiRow => rows.map (·.status)) ?_
  refine updateWhere_eq_self fun row member found => ?_
  have other := of_decide_eq_true (List.mem_filter.mp member).2
  exact absurd (of_decide_eq_true found) other

variable {sprintId : String}

/-- The decision about a sprint without the PBI is the same after the call. -/
theorem sprintDecision_apart (commits : Commits db db' taskId newStatus part)
    (keyed : db.Keyed) (fresh : part.Fresh db taskId newStatus)
    (apart : part.pbi ∉ db.sprintPbis sprintId) :
    db'.sprintDecision sprintId = db.sprintDecision sprintId := by
  have same : db'.sprintPbis sprintId = db.sprintPbis sprintId := by
    rw [commits.sprintPbis]
    refine updateWhere_eq_self fun row member found => ?_
    have equal := keyed.pbi (mem_sprintPbis.mp member).1 fresh.read.known (of_decide_eq_true found)
    exact absurd (equal ▸ member) apart
  unfold Db.sprintDecision
  rw [same]

/-- That about a sprint with the PBI is, exactly if its statuses make no difference. -/
theorem sprintDecision_iff (commits : Commits db db' taskId newStatus part)
    (keyed : db.Keyed) (fresh : part.Fresh db taskId newStatus)
    (member : part.pbi ∈ db.sprintPbis sprintId) :
    db.sprintDecision sprintId = db'.sprintDecision sprintId ↔
      Indifferent (db.otherStatuses sprintId part.pbi.id) part.pbi.status part.nextPbi := by
  have written : { part.pbi with status := part.nextPbi } ∈ db'.sprintPbis sprintId := by
    rw [commits.sprintPbis]
    exact mem_updateWhere.mpr (.inl ⟨part.pbi, member, decide_eq_true rfl, rfl⟩)
  rw [sprintDecision_of_mem keyed member,
    sprintDecision_of_mem (commits.keyed keyed) written, commits.otherStatuses]
  by_cases blocked : part.pbi.status = .blocked
  · have kept : part.nextPbi = part.pbi.status := by
      rw [fresh.next, decidePbiStatus, if_pos blocked, blocked]
    rw [kept]
    exact ⟨fun _ => .inl rfl, fun _ => rfl⟩
  · refine decideSprintStatus_cons_eq_iff blocked ?_
    rw [fresh.next]
    exact decidePbiStatus_ne_blocked blocked

end Commits

/-- Of the sprints only that of the story is written. -/
theorem sprints_committed (whole : db.Whole) (known : part.story ∈ db.stories) :
    (part.committed db taskId newStatus (part.sprintPart db taskId newStatus)).sprints =
      updateWhere (fun row => part.story.sprintId = some row.id) (fun row =>
          { row with status := (part.written db taskId newStatus).sprintDecision row.id })
        db.sprints := by
  unfold PbiPart.sprintPart
  cases inSprint : part.story.sprintId with
  | none =>
    refine (updateWhere_eq_self fun row _ found => ?_).symm
    cases of_decide_eq_true found
  | some sprintId =>
    obtain ⟨sprint, sprintKnown, rfl⟩ := whole.storySprint _ known sprintId inSprint
    have only : ∀ row ∈ db.sprints, some sprint.id = some row.id → row = sprint :=
      fun row member same => List.inj_on_of_nodup_map whole.sprints member sprintKnown
        (Option.some.inj same).symm
    have found : db.sprint? sprint.id = some sprint := sprint?_eq whole.sprints sprintKnown
    rw [Option.bind_some, found, Option.map_some]
    unfold PbiPart.committed Db.withWrites
    dsimp only [Call.sprintWrite]
    split
    · rename_i same
      refine (updateWhere_eq_self fun row member matched => ?_).symm
      rw [only row member (of_decide_eq_true matched), same]
    · refine List.map_congr_left fun row member => ?_
      by_cases here : row.id = sprint.id
      · rw [if_pos (decide_eq_true here), if_pos (decide_eq_true (congrArg some here.symm))]
        dsimp only
        rw [here]
      · rw [if_neg fun matched => here (of_decide_eq_true matched),
          if_neg fun matched => here (Option.some.inj (of_decide_eq_true matched)).symm]

/-- After a call that has written the law holds exactly if the PBI's statuses make no
difference for the other sprints. -/
theorem committed_lawful_iff
    (whole : db.Whole) (lawful : db.Lawful) (fresh : part.Fresh db taskId newStatus) :
    (part.committed db taskId newStatus (part.sprintPart db taskId newStatus)).Lawful ↔
      ∀ sprint ∈ db.sprints, part.story.sprintId ≠ some sprint.id →
        part.pbi ∈ db.sprintPbis sprint.id →
          Indifferent (db.otherStatuses sprint.id part.pbi.id) part.pbi.status part.nextPbi := by
  have commits : Commits db
      (part.committed db taskId newStatus (part.sprintPart db taskId newStatus))
        taskId newStatus part := commits_withWrites whole.keyed fresh
  have sprints := @sprints_committed db taskId newStatus part whole fresh.read.story.known
  constructor
  · intro after sprint member apart inside
    refine (commits.sprintDecision_iff whole.keyed fresh inside).mp ?_
    rw [← lawful.sprints sprint member]
    refine after.sprints sprint ?_
    rw [sprints]
    exact mem_updateWhere.mpr (.inr ⟨member, decide_eq_false apart⟩)
  · intro indifferent
    refine ⟨commits.agreeing whole.keyed lawful.agreeing fresh, fun sprint member => ?_⟩
    rw [sprints] at member
    rcases mem_updateWhere.mp member with ⟨old, -, -, rfl⟩ | ⟨inside, missed⟩
    · rfl
    · rw [lawful.sprints sprint inside]
      by_cases holds : part.pbi ∈ db.sprintPbis sprint.id
      · exact (commits.sprintDecision_iff whole.keyed fresh holds).mpr
          (indifferent sprint inside (of_decide_eq_false missed) holds)
      · exact (commits.sprintDecision_apart whole.keyed fresh holds).symm

theorem contained_iff {change : Change} (whole : db.Whole)
    (fresh : part.Fresh db change.taskId change.newStatus) :
    Contained db change ↔ ∀ sprint ∈ db.sprints, part.story.sprintId ≠ some sprint.id →
        part.pbi ∈ db.sprintPbis sprint.id →
          Indifferent (db.otherStatuses sprint.id part.pbi.id) part.pbi.status part.nextPbi := by
  obtain ⟨task, taskKnown, named, owner⟩ := fresh.read.story.owns
  have decided : part.nextPbi =
      db.newPbiStatus change.taskId change.newStatus part.story part.pbi := by
    rw [fresh.next, fresh.read.story.next]
    rfl
  rw [decided]
  constructor
  · intro contained
    exact contained task taskKnown named part.story fresh.read.story.known owner.symm
      part.pbi fresh.read.known fresh.read.parent
  · intro indifferent task' taskKnown' named' story storyKnown owner' pbi pbiKnown parent
    obtain rfl := whole.keyed.task taskKnown' taskKnown (named'.trans named.symm)
    obtain rfl := whole.keyed.story storyKnown fresh.read.story.known (owner'.trans owner)
    obtain rfl := whole.keyed.pbi pbiKnown fresh.read.known (parent.trans fresh.read.parent.symm)
    exact indifferent

/-! ## Sequences of calls -/

theorem perform_lawful_iff (whole : db.Whole) (lawful : db.Lawful) (change : Change) :
    (perform db change).Lawful ↔ Contained db change := by
  rcases perform_cases whole change with ⟨unknown, kept⟩ | ⟨part, fresh, performed⟩
  · rw [kept]
    refine ⟨fun _ task member named => ?_, fun _ => lawful⟩
    exact absurd named (unknown task member)
  · rw [performed, contained_iff whole fresh]
    exact committed_lawful_iff whole lawful fresh

/-- The keys are not written, nor the foreign keys. -/
theorem committed_whole (whole : db.Whole) (fresh : part.Fresh db taskId newStatus) :
    (part.committed db taskId newStatus (part.sprintPart db taskId newStatus)).Whole := by
  have commits : Commits db
      (part.committed db taskId newStatus (part.sprintPart db taskId newStatus))
        taskId newStatus part := commits_withWrites whole.keyed fresh
  have sprints := @sprints_committed db taskId newStatus part whole fresh.read.story.known
  refine ⟨commits.keyed whole.keyed, ?_, ?_, ?_, ?_⟩
  · rw [sprints]
    refine nodup_updateWhere ?_ whole.sprints
    exact fun _ => rfl
  · intro task member
    rw [commits.tasks] at member
    obtain ⟨old, inside, same⟩ := @exists_of_updateWhere _
      (fun row : TaskRow => decide (row.id = taskId))
      (fun row => { row with status := newStatus }) _
      (fun row row' : TaskRow => row'.storyId = row.storyId)
      (fun _ => rfl) (fun _ => rfl) task member
    obtain ⟨story, storyKnown, owner⟩ := whole.taskStory old inside
    obtain ⟨story', storyKnown', same'⟩ := @exists_updateWhere _
      (fun row : StoryRow => decide (row.id = part.story.id))
      (fun row => { row with status := part.toStoryPart.next }) _
      (fun row row' => row'.id = row.id) (fun _ => rfl) (fun _ => rfl) story storyKnown
    rw [commits.stories]
    exact ⟨story', storyKnown', (same'.trans owner).trans same.symm⟩
  · intro story member
    rw [commits.stories] at member
    obtain ⟨old, inside, same⟩ := @exists_of_updateWhere _
      (fun row : StoryRow => decide (row.id = part.story.id))
      (fun row => { row with status := part.toStoryPart.next }) _
      (fun row row' : StoryRow => row'.pbiId = row.pbiId)
      (fun _ => rfl) (fun _ => rfl) story member
    obtain ⟨pbi, pbiKnown, parent⟩ := whole.storyPbi old inside
    obtain ⟨pbi', pbiKnown', same'⟩ := @exists_updateWhere _
      (fun row : PbiRow => decide (row.id = part.pbi.id))
      (fun row => { row with status := part.nextPbi }) _
      (fun row row' => row'.id = row.id) (fun _ => rfl) (fun _ => rfl) pbi pbiKnown
    rw [commits.pbis]
    exact ⟨pbi', pbiKnown', (same'.trans parent).trans same.symm⟩
  · intro story member sprintId inSprint
    rw [commits.stories] at member
    obtain ⟨old, inside, same⟩ := @exists_of_updateWhere _
      (fun row : StoryRow => decide (row.id = part.story.id))
      (fun row => { row with status := part.toStoryPart.next }) _
      (fun row row' : StoryRow => row'.sprintId = row.sprintId)
      (fun _ => rfl) (fun _ => rfl) story member
    obtain ⟨sprint, sprintKnown, named⟩ := whole.storySprint old inside sprintId (same ▸ inSprint)
    rw [sprints]
    obtain ⟨sprint', sprintKnown', same'⟩ := @exists_updateWhere _
      (fun row : SprintRow => decide (part.story.sprintId = some row.id))
      (fun row => { row with status := (part.written db taskId newStatus).sprintDecision row.id }) _
      (fun row row' => row'.id = row.id) (fun _ => rfl) (fun _ => rfl) sprint sprintKnown
    exact ⟨sprint', sprintKnown', same'.trans named⟩

theorem perform_whole (whole : db.Whole) (change : Change) : (perform db change).Whole := by
  rcases perform_cases whole change with ⟨-, kept⟩ | ⟨part, fresh, performed⟩
  · rw [kept]
    exact whole
  · rw [performed]
    exact committed_whole whole fresh

/-- One call after another: in every state every story, every PBI and every sprint has
the status that its children decide, exactly if no call moves a PBI between statuses
that make a difference for a sprint other than that of the story of its task. -/
theorem sprints_follow_iff_contained
    (db : Db) (whole : db.Whole) (lawful : db.Lawful) (changes : List Change) :
    (∀ earlier, earlier <+: changes → (run perform db earlier).Lawful) ↔
      EveryStep perform Contained db changes :=
  @always_iff_everyStep _ _ perform Contained Db.Whole Db.Lawful
    (fun _ change whole => perform_whole whole change)
    (fun _ change whole lawful => perform_lawful_iff whole lawful change) db changes
    whole lawful

/-! ## A PBI in two sprints -/

namespace TwoSprints

/-- A PBI with a story in each of two sprints, and a second PBI in the second sprint. -/
def board : Db where
  tasks :=
    [{ id := "t1", storyId := "s1", status := .toDo },
      { id := "t2", storyId := "s2", status := .done },
      { id := "t3", storyId := "s3", status := .toDo }]
  stories :=
    [{ id := "s1", pbiId := "p", sprintId := some "first", status := .inSprint },
      { id := "s2", pbiId := "p", sprintId := some "second", status := .done },
      { id := "s3", pbiId := "q", sprintId := some "second", status := .inSprint }]
  pbis := [{ id := "p", status := .ready }, { id := "q", status := .ready }]
  sprints := [{ id := "first", status := .opened }, { id := "second", status := .opened }]

end TwoSprints

open TwoSprints in
/-- A PBI is done while another of the second sprint is not, and that other fails. -/
theorem sprints_follow_two_sprints :
    (run perform board [⟨"t1", .done⟩, ⟨"t3", .failed⟩]).Lawful ∧
      (run perform board [⟨"t1", .done⟩, ⟨"t3", .failed⟩]).sprints =
        [{ id := "first", status := .closed }, { id := "second", status := .failed }] :=
  ⟨(sprints_follow_iff_contained board (by decide) (by decide)
      [⟨"t1", .done⟩, ⟨"t3", .failed⟩]).mpr (by decide +kernel) _ List.prefix_rfl,
    by decide +kernel⟩

open TwoSprints in
/-- A PBI fails through its story in the first sprint; the second sprint, which has a
story of it too, stays open. -/
theorem sprint_left_open :
    (board.Whole ∧ board.Lawful) ∧
      ((run perform board [⟨"t1", .failed⟩]).pbi? "p").map (·.status) = some .failed ∧
        ((run perform board [⟨"t1", .failed⟩]).sprint? "second").map (·.status) =
          some .opened ∧
          (run perform board [⟨"t1", .failed⟩]).sprintDecision "second" = .failed ∧
            ¬ (run perform board [⟨"t1", .failed⟩]).Lawful := by
  decide +kernel

end Hierarchy
end Scrum4Me
