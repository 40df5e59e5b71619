import Scrum4Me.Reviews.Pipeline

/-!
# What keeps the loop going

A maker whose review is not there yet, and a review without a verdict, leave a
step of the loop open. Their jobs are active, an idea that waits has one, and the
calls in flight know enough to take that step. A new row stands below every row
that it descends from, and a review below no other job of its loop that is active.
-/

namespace Scrum4Me
namespace Reviews

open Foundation Jobs Origin Relation

/-- The loop of a maker. -/
def makerLoop? : JobKind → Option Loop
  | .ideaMakePlan => some .plan
  | .ideaMakeSpec => some .spec
  | .ideaReviseSpec => some .spec
  | _ => none

variable {job : LoopJob} {review : Review} {kind : JobKind}

theorem makerLoop?_eq_some {loop : Loop} : makerLoop? kind = some loop ↔ kind ∈ loop.makers := by
  cases kind <;> cases loop <;> decide

/-- The idea waits for a job of a loop. -/
def IdeaStatus.Waits (status : IdeaStatus) : Prop :=
  status = .specDrafting ∨ status = .specReviewing ∨ status = .planning ∨
    status = .reviewingPlan

instance (status : IdeaStatus) : Decidable status.Waits :=
  inferInstanceAs (Decidable (_ ∨ _))

namespace World

variable (world : World)

/-- A maker has its review. -/
def HasReview (jobId : String) : Prop :=
  ∃ child ∈ world.jobs, child.createdByJobId = some jobId

instance (jobId : String) : Decidable (world.HasReview jobId) :=
  inferInstanceAs (Decidable (∃ _ ∈ _, _))

/-- The step of the loop that the job is for has not been taken. -/
def Open (job : LoopJob) : Prop :=
  makerLoop? job.kind ≠ none ∧ ¬ world.HasReview job.id ∨
    reviewLoop? job.kind ≠ none ∧ ¬ world.Reviewed job.id

end World

/-! ## The invariant -/

/-- What an answer promises. -/
def Answer.Kept (world : World) : Answer → Prop
  | .wrote (some jobId) _ =>
      world.HasReview jobId ∧
        ∃ job ∈ world.jobs, job.id = jobId ∧ makerLoop? job.kind ≠ none
  | .wrote none _ => True
  | .verdict jobId _ => world.Reviewed jobId

/-- A worker holds the maker, or its review is there. -/
def World.Busy (world : World) (jobId : String) (loop : Loop) (ideaId : IdeaId) : Prop :=
  ∃ job ∈ world.jobs, job.id = jobId ∧ job.kind ∈ loop.makers ∧
    job.ideaId = ideaId ∧ (world.HasReview jobId ∨ job.status.Held)

/-- The job that a worker writes for, when it is not the one whose review is
dispatched, has its review. -/
def Dispatch.Serves (dispatch : Dispatch) (world : World) : Prop :=
  (∃ jobId, dispatch.writer = some jobId ∧
    (∃ job ∈ world.jobs, job.id = jobId ∧ makerLoop? job.kind ≠ none) ∧
      (jobId = dispatch.maker.id ∨ world.HasReview jobId)) ∧
    world.Busy dispatch.maker.id dispatch.loop dispatch.maker.ideaId

/-- What a call in flight relies on. -/
def Call.Going (world : World) : Call → Prop
  | .written write =>
      write.autoPlanReview = true ∧ (∃ idea ∈ world.ideas, idea.id = write.ideaId) ∧
          (write.loop = .spec → ∀ idea ∈ world.ideas, idea.id = write.ideaId →
            idea.specDocId ≠ none) ∧
            ∃ jobId, write.writer = some jobId ∧
              world.Busy jobId write.loop write.ideaId
  | .dispatching dispatch => dispatch.Serves world
  | .granted dispatch =>
      dispatch.Serves world ∧ (world.HasReview dispatch.maker.id ∨
          ∀ job ∈ world.jobs, job.ideaId = dispatch.maker.ideaId →
            job.kind ∈ dispatch.loop.kinds → job.status.Active →
              job.id = dispatch.maker.id)
  | .reviewing review =>
      review.autoPlanReview = true ∧ (world.Reviewed review.job.id ∨
          ∃ job ∈ world.jobs, job.id = review.job.id ∧
            reviewLoop? job.kind ≠ none ∧ job.status.Held ∧
              job.claimedByTokenId = some review.submission.tokenId)
  | .judging review => review.autoPlanReview = true
  | .searched review active => review.autoPlanReview = true ∧ active = none
  | _ => True

/-- When a review was inserted, its maker alone was active in the loop. -/
def Overtakes (earlier later : LoopJob) : Prop :=
  ∀ loop, later.kind = Loop.reviewer loop → earlier.kind ∈ Loop.kinds loop →
    earlier.ideaId = later.ideaId → earlier.status.Active →
      later.createdByJobId = some earlier.id

/-- What every state of a run of diligent workers satisfies. -/
structure Going (world : World) : Prop where
  order : world.origins.Pairwise fun earlier later =>
    ¬ Descends world.origins later earlier
  overtakes : world.jobs.Pairwise Overtakes
  logged : ∀ id ∈ world.reviewed, id ∈ world.jobs.map (·.id)
  openActive : ∀ job ∈ world.jobs, world.Open job → job.status.Active
  waits : ∀ idea ∈ world.ideas, idea.status.Waits →
    ∃ job ∈ world.jobs, job.ideaId = idea.id ∧ world.Open job
  answers : ∀ answer ∈ world.answers, answer.Kept world
  calls : ∀ call ∈ world.calls, call.Going world

variable {world world' : World} {call : Call}

/-! ## Calls and answers -/

theorem Going.turns (going : Going world) {calls : List Call} {answers : List Answer}
    (callsGoing : ∀ call ∈ calls, call ∈ world.calls ∨ call.Going world)
    (answersKept : ∀ answer ∈ answers, answer ∈ world.answers ∨ answer.Kept world) :
    Going { world with calls := calls, answers := answers } where
  order := going.order
  overtakes := going.overtakes
  logged := going.logged
  openActive := going.openActive
  waits := going.waits
  answers := fun answer member => (answersKept answer member).elim (going.answers answer) id
  calls := fun call member => (callsGoing call member).elim (going.calls call) id

/-- What is logged or asked beside does not matter. -/
theorem Going.logs
    (going : Going world) (ideaLogs : List IdeaLogRow) (questions : List QuestionRow) :
    Going { world with ideaLogs := ideaLogs, questions := questions } where
  order := going.order
  overtakes := going.overtakes
  logged := going.logged
  openActive := going.openActive
  waits := going.waits
  answers := going.answers
  calls := going.calls

theorem Going.ended (going : Going world) (call : Call) {answer : Option Answer}
    (kept : ∀ given ∈ answer, given.Kept world) :
    Going (world.ended call answer) :=
  going.turns (fun _ member => .inl (List.mem_of_mem_erase member)) fun given member =>
    (List.mem_append.mp member).imp id fun new => kept given (Option.mem_toList.mp new)

theorem Going.proceeds
    (going : Going world) (call : Call) {next : Call} (knows : next.Going world) :
    Going (world.proceeds call next) := by
  refine going.turns (fun other member => ?_) fun _ member => .inl member
  rcases mem_inserted.mp member with old | rfl
  · exact .inl (List.mem_of_mem_erase old)
  · exact .inr knows

theorem Going.begins (going : Going world) {next : Call} (knows : next.Going world) :
    Going { world with calls := world.calls ++ [next] } := by
  refine going.turns (fun other member => ?_) fun _ member => .inl member
  rcases mem_inserted.mp member with old | rfl
  · exact .inl old
  · exact .inr knows

/-! ## Rows of ideas -/

theorem Going.updateIdea (going : Going world) {ideaId : IdeaId} {change : IdeaRow → IdeaRow}
    (id : ∀ idea, (change idea).id = idea.id)
    (doc : ∀ idea, idea.specDocId ≠ none → (change idea).specDocId ≠ none)
    (status : ∀ idea ∈ world.ideas, idea.id = ideaId → (change idea).status.Waits →
        ∃ job ∈ world.jobs, job.ideaId = ideaId ∧ world.Open job) :
    Going (world.updateIdea ideaId change) where
  order := going.order
  overtakes := going.overtakes
  logged := going.logged
  openActive := going.openActive
  waits := by
    intro idea member waits
    rcases mem_updateWhere.mp member with ⟨old, inside, here, rfl⟩ | ⟨inside, -⟩
    · have same : old.id = ideaId := of_decide_eq_true here
      rw [id, same]
      exact status old inside same waits
    · exact going.waits idea inside waits
  answers := going.answers
  calls := by
    intro call member
    have old := going.calls call member
    cases call with
    | written write =>
      obtain ⟨auto, ⟨idea, inside, named⟩, docs, worker⟩ := old
      refine ⟨auto, ?_, ?_, worker⟩
      · obtain ⟨row, found, same⟩ := @exists_updateWhere _
          (fun idea : IdeaRow => decide (idea.id = ideaId)) change world.ideas
          (fun idea idea' => idea'.id = idea.id) (fun _ => rfl) id idea inside
        exact ⟨row, found, same.trans named⟩
      · intro spec row found sameId
        rcases mem_updateWhere.mp found with ⟨older, present, -, rfl⟩ | ⟨present, -⟩
        · exact doc older (docs spec older present ((id older).symm.trans sameId))
        · exact docs spec row present sameId
    | _ => exact old

/-! ## Rows of jobs -/

theorem World.hasReview_iff {jobId : String} :
    world.HasReview jobId ↔ ∃ origin ∈ world.origins, origin.createdByJobId = some jobId := by
  simp [World.HasReview, World.origins, LoopJob.origin]

/-- Rows of jobs are rewritten: none becomes active, none whose step is open ends,
and what a worker held it holds still, unless its work is done. -/
theorem Going.rewrite (going : Going world) {matching : LoopJob → Bool} {change : LoopJob → LoopJob}
    (origin : ∀ job, (change job).origin = job.origin)
    (active : ∀ job ∈ world.jobs, matching job = true →
      (change job).status.Active → job.status.Active)
    (opened : ∀ job ∈ world.jobs, matching job = true → world.Open job → (change job).status.Active)
    (held : ∀ job ∈ world.jobs, matching job = true → job.status.Held → (change job).status.Held ∧
          (change job).claimedByTokenId = job.claimedByTokenId ∨
        (makerLoop? job.kind ≠ none → world.HasReview job.id) ∧
          (reviewLoop? job.kind ≠ none → world.Reviewed job.id)) :
    Going { world with jobs := updateWhere matching change world.jobs } := by
  have origins : World.origins { world with jobs := updateWhere matching change world.jobs } =
        world.origins := origins_updateWhere origin
  have hasReview : ∀ {jobId}, World.HasReview
      { world with jobs := updateWhere matching change world.jobs } jobId ↔
        world.HasReview jobId := by
    intro jobId
    rw [World.hasReview_iff, origins, World.hasReview_iff]
  have kind : ∀ job, (change job).kind = job.kind := fun job => congrArg Origin.kind (origin job)
  have id : ∀ job, (change job).id = job.id := fun job => congrArg Origin.id (origin job)
  have idea : ∀ job, (change job).ideaId = job.ideaId := fun job =>
    congrArg Origin.ideaId (origin job)
  have isOpen : ∀ {job}, World.Open
      { world with jobs := updateWhere matching change world.jobs } job ↔ world.Open job := by
    intro job
    unfold World.Open
    rw [hasReview]
    rfl
  have open_change : ∀ {job}, world.Open (change job) ↔ world.Open job := by
    intro job
    unfold World.Open
    rw [kind, id]
  -- A row that was held is held still, or its work is done.
  have keeps : ∀ job ∈ world.jobs, job.status.Held →
      (∃ job' ∈ updateWhere matching change world.jobs,
        job'.origin = job.origin ∧ job'.status.Held ∧
          job'.claimedByTokenId = job.claimedByTokenId) ∨
        (makerLoop? job.kind ≠ none → world.HasReview job.id) ∧
          (reviewLoop? job.kind ≠ none → world.Reviewed job.id) := by
    intro job member isHeld
    by_cases here : matching job = true
    · rcases held job member here isHeld with still | done
      · exact .inl ⟨change job,
          mem_updateWhere.mpr (.inl ⟨job, member, here, rfl⟩), origin job, still⟩
      · exact .inr done
    · exact .inl ⟨job, mem_updateWhere.mpr (.inr ⟨member, by simpa using here⟩), rfl, isHeld, rfl⟩
  have persists : ∀ job ∈ world.jobs, ∃ job' ∈ updateWhere matching change world.jobs,
        job'.origin = job.origin := fun job member =>
    @exists_updateWhere _ matching change world.jobs
      (fun row row' => row'.origin = row.origin) (fun _ => rfl) origin job member
  have busy : ∀ {jobId loop ideaId}, world.Busy jobId loop ideaId → World.Busy
      { world with jobs := updateWhere matching change world.jobs } jobId loop ideaId := by
    rintro jobId loop ideaId ⟨job, member, named, maker, here, works⟩
    have done_or : (∃ job' ∈ updateWhere matching change world.jobs,
        job'.origin = job.origin ∧ (world.HasReview jobId ∨ job'.status.Held)) := by
      rcases works with has | isHeld
      · obtain ⟨job', member', same⟩ := persists job member
        exact ⟨job', member', same, .inl has⟩
      · rcases keeps job member isHeld with ⟨job', member', same, still, -⟩ | done
        · exact ⟨job', member', same, .inr still⟩
        · obtain ⟨job', member', same⟩ := persists job member
          refine ⟨job', member', same, .inl (named ▸ done.1 ?_)⟩
          rw [makerLoop?_eq_some.mpr maker]
          exact nofun
    obtain ⟨job', member', same, works'⟩ := done_or
    have sameKind : job'.kind = job.kind := congrArg Origin.kind same
    refine ⟨job', member', (congrArg Origin.id same).trans named, sameKind ▸ maker,
      (congrArg Origin.ideaId same).trans here, ?_⟩
    rwa [hasReview]
  have serves : ∀ {dispatch : Dispatch}, dispatch.Serves world → dispatch.Serves
      { world with jobs := updateWhere matching change world.jobs } := by
    rintro dispatch ⟨⟨jobId, writer, ⟨job, member, named, maker⟩, own⟩, works⟩
    obtain ⟨job', member', same⟩ := persists job member
    have sameKind : job'.kind = job.kind := congrArg Origin.kind same
    refine ⟨⟨jobId, writer, ⟨job', member', (congrArg Origin.id same).trans named,
      sameKind ▸ maker⟩, ?_⟩, busy works⟩
    rwa [hasReview]
  refine ⟨?_, ?_, ?_, ?_, ?_, ?_, ?_⟩
  · rw [origins]
    exact going.order
  · refine List.pairwise_map.mpr (going.overtakes.imp_of_mem ?_)
    intro earlier later earlierMember laterMember overtakes loop reviews kinds ideas isActive
    have rewritten : ∀ job ∈ world.jobs,
        LoopJob.origin (if matching job then change job else job) = job.origin ∧
          ((if matching job then change job else job).status.Active → job.status.Active) := by
      intro job member
      by_cases here : matching job = true
      · rw [if_pos here]
        exact ⟨origin job, active job member here⟩
      · rw [if_neg here]
        exact ⟨rfl, fun isActive => isActive⟩
    have first := rewritten earlier earlierMember
    have second := rewritten later laterMember
    have sameId : _ = earlier.id := congrArg Origin.id first.1
    have sameKind : _ = earlier.kind := congrArg Origin.kind first.1
    have sameIdea : _ = earlier.ideaId := congrArg Origin.ideaId first.1
    have laterKind : _ = later.kind := congrArg Origin.kind second.1
    have laterIdea : _ = later.ideaId := congrArg Origin.ideaId second.1
    have creator : _ = later.createdByJobId := congrArg Origin.createdByJobId second.1
    change LoopJob.createdByJobId _ = some (LoopJob.id _)
    rw [show LoopJob.createdByJobId _ = _ from creator,
      show LoopJob.id _ = _ from sameId]
    exact overtakes loop (laterKind ▸ reviews) (sameKind ▸ kinds)
      (sameIdea ▸ laterIdea ▸ ideas) (first.2 isActive)
  · intro reviewId member
    obtain ⟨job, inside, named⟩ := List.mem_map.mp (going.logged reviewId member)
    obtain ⟨job', member', same⟩ := persists job inside
    exact List.mem_map.mpr ⟨job', member', (congrArg Origin.id same).trans named⟩
  · intro job member isOpen'
    rw [isOpen] at isOpen'
    rcases mem_updateWhere.mp member with ⟨old, inside, here, rfl⟩ | ⟨inside, -⟩
    · exact opened old inside here (open_change.mp isOpen')
    · exact going.openActive job inside isOpen'
  · intro idea' member waits
    obtain ⟨job, inside, here, isOpen'⟩ := going.waits idea' member waits
    obtain ⟨job', member', same⟩ := persists job inside
    refine ⟨job', member', (congrArg Origin.ideaId same).trans here, isOpen.mpr ?_⟩
    have sameKind : job'.kind = job.kind := congrArg Origin.kind same
    have sameId : job'.id = job.id := congrArg Origin.id same
    unfold World.Open
    rw [sameKind, sameId]
    exact isOpen'
  · intro answer member
    have kept := going.answers answer member
    cases answer with
    | verdict => exact kept
    | wrote writer =>
      cases writer with
      | none => trivial
      | some jobId =>
        obtain ⟨has, job, inside, named, maker⟩ := kept
        obtain ⟨job', member', same⟩ := persists job inside
        have sameKind : job'.kind = job.kind := congrArg Origin.kind same
        exact ⟨hasReview.mpr has, job', member',
          (congrArg Origin.id same).trans named, sameKind ▸ maker⟩
  · intro call member
    have old := going.calls call member
    cases call with
    | written write =>
      obtain ⟨auto, known, docs, jobId, writer, works⟩ := old
      exact ⟨auto, known, docs, jobId, writer, busy works⟩
    | dispatching dispatch => exact serves old
    | granted dispatch =>
      refine ⟨serves old.1, ?_⟩
      rcases old.2 with has | alone
      · exact .inl (hasReview.mpr has)
      · refine .inr fun job member here kinds isActive => ?_
        rcases mem_updateWhere.mp member with ⟨row, inside, matched, rfl⟩ | ⟨inside, -⟩
        · rw [id]
          exact alone row inside ((idea row).symm.trans here) (kind row ▸ kinds)
            (active row inside matched isActive)
        · exact alone job inside here kinds isActive
    | reviewing review =>
      refine ⟨old.1, ?_⟩
      rcases old.2 with done | ⟨job, inside, named, reviews, isHeld, token⟩
      · exact .inl done
      · rcases keeps job inside isHeld with ⟨job', member', same, still, sameToken⟩ |
          done
        · have sameKind : job'.kind = job.kind := congrArg Origin.kind same
          exact .inr ⟨job', member', (congrArg Origin.id same).trans named,
            sameKind ▸ reviews, still, sameToken.trans token⟩
        · exact .inl (named ▸ done.2 reviews)
    | judging => exact old
    | searched => exact old
    | _ => trivial

/-! ## A job is inserted -/

theorem World.HasReview.insert {jobId : String} (has : world.HasReview jobId) :
    (world.insertJob job).HasReview jobId := by
  obtain ⟨child, member, created⟩ := has
  exact ⟨child, List.mem_append_left _ member, created⟩

/-- Nothing was created yet by a job that is new. -/
theorem Sound.not_hasReview_of_fresh (sound : Sound world) (fresh : job.id ∉ world.jobs.map (·.id))
    (distinct : job.createdByJobId ≠ some job.id) :
    ¬ (world.insertJob job).HasReview job.id := by
  rintro ⟨child, member, created⟩
  rcases List.mem_append.mp member with old | new
  · rcases sound.forest.grown child.origin (List.mem_map_of_mem old) with
      root | ⟨parent, known, follows⟩
    · exact absurd (created.symm.trans root.1) (Option.some_ne_none _)
    · have same : parent.id = job.id := Option.some.inj (follows.createdBy.symm.trans created)
      exact fresh_origin fresh (same ▸ List.mem_map_of_mem known)
  · exact distinct (List.mem_singleton.mp new ▸ created)

/-- A line that ends at an older job does not pass the new one. -/
theorem Descends.of_insert {origins : List Origin} {new first second : Origin}
    (descends : Descends (origins ++ [new]) first second)
    (childless : Forest.Childless (origins ++ [new]) new) (older : second ∈ origins) :
    first ∈ origins ∧ Descends origins first second ∨ first = new ∧ second = new := by
  induction descends with
  | refl => exact .inl ⟨older, .refl⟩
  | @tail middle last before creates ih =>
    rcases List.mem_append.mp creates.1 with middleOld | middleNew
    · rcases ih middleOld with ⟨member, line⟩ | ⟨-, same⟩
      · exact .inl ⟨member, line.tail ⟨middleOld, older, creates.2.2⟩⟩
      · exact absurd (same ▸ creates.2.2) (childless last creates.2.1)
    · exact absurd (List.mem_singleton.mp middleNew ▸ creates.2.2) (childless last creates.2.1)

theorem Going.insert (sound : Sound world) (going : Going world)
    (fresh : job.id ∉ world.jobs.map (·.id)) (distinct : job.createdByJobId ≠ some job.id)
    (active : job.status.Active) (overtakes : ∀ other ∈ world.jobs, Overtakes other job)
    (parent : ∀ other ∈ world.jobs, job.createdByJobId = some other.id → other.ideaId = job.ideaId)
    (loops : job.createdByJobId ≠ none → makerLoop? job.kind ≠ none ∨ reviewLoop? job.kind ≠ none)
    (apart : ∀ call ∈ world.calls, ∀ dispatch, call = .granted dispatch →
      dispatch.maker.ideaId ≠ job.ideaId) :
    Going (world.insertJob job) ∧ (makerLoop? job.kind ≠ none ∨ reviewLoop? job.kind ≠ none →
        (world.insertJob job).Open job) := by
  have origins : (world.insertJob job).origins = world.origins ++ [job.origin] := by
    simp [World.insertJob, World.origins]
  have unreviewed : ¬ (world.insertJob job).Reviewed job.id := fun reviewed =>
    fresh (going.logged job.id reviewed)
  have childless := sound.not_hasReview_of_fresh fresh distinct
  have isOpen : makerLoop? job.kind ≠ none ∨ reviewLoop? job.kind ≠ none →
      (world.insertJob job).Open job := by
    rintro (maker | review)
    · exact .inl ⟨maker, childless⟩
    · exact .inr ⟨review, unreviewed⟩
  refine ⟨⟨?_, ?_, ?_, ?_, ?_, ?_, ?_⟩, isOpen⟩
  · rw [origins]
    have none_below : Forest.Childless (world.origins ++ [job.origin]) job.origin := by
      intro child member created
      rw [← origins] at member
      exact childless (World.hasReview_iff.mpr ⟨child, member, created⟩)
    refine List.pairwise_append.mpr ⟨?_, List.pairwise_singleton _ _, ?_⟩
    · refine going.order.imp_of_mem ?_
      intro earlier later earlierMember _ apart descends
      rcases descends.of_insert none_below earlierMember with ⟨-, line⟩ | ⟨-, same⟩
      · exact apart line
      · have known : job.id ∈ world.origins.map (·.id) :=
          List.mem_map.mpr ⟨earlier, earlierMember, by rw [same]; rfl⟩
        exact fresh_origin fresh known
    · intro earlier earlierMember later laterMember descends
      rw [List.mem_singleton.mp laterMember] at descends
      have same := descends.eq_of_childless none_below
      have known : job.id ∈ world.origins.map (·.id) :=
        List.mem_map.mpr ⟨earlier, earlierMember, by rw [← same]; rfl⟩
      exact fresh_origin fresh known
  · refine List.pairwise_append.mpr ⟨going.overtakes, List.pairwise_singleton _ _, ?_⟩
    intro earlier earlierMember later laterMember
    rw [List.mem_singleton.mp laterMember]
    exact overtakes earlier earlierMember
  · intro id member
    show id ∈ List.map _ (world.jobs ++ [job])
    rw [List.map_append]
    exact List.mem_append_left _ (going.logged id member)
  · intro other member opened
    rcases mem_inserted.mp member with old | rfl
    · refine going.openActive other old ?_
      rcases opened with ⟨maker, without⟩ | review
      · exact .inl ⟨maker, fun has => without has.insert⟩
      · exact .inr review
    · exact active
  · intro idea member waits
    obtain ⟨other, inside, here, opened⟩ := going.waits idea member waits
    by_cases created : job.createdByJobId = some other.id
    · -- The job that it waited for has its child now, which is open.
      refine ⟨job, List.mem_append_right _ (List.mem_singleton_self _), ?_,
        isOpen (loops (by rw [created]; exact Option.some_ne_none _))⟩
      exact (parent other inside created).symm.trans here
    · refine ⟨other, List.mem_append_left _ inside, here, ?_⟩
      rcases opened with ⟨maker, without⟩ | review
      · refine .inl ⟨maker, ?_⟩
        rintro ⟨child, found, createdBy⟩
        rcases List.mem_append.mp found with old | new
        · exact without ⟨child, old, createdBy⟩
        · exact created (List.mem_singleton.mp new ▸ createdBy)
      · exact .inr review
  · intro answer member
    have kept := going.answers answer member
    cases answer with
    | verdict => exact kept
    | wrote writer =>
      cases writer with
      | none => trivial
      | some jobId =>
        obtain ⟨has, row, inside, named⟩ := kept
        exact ⟨has.insert, row, List.mem_append_left _ inside, named⟩
  · intro call member
    have old := going.calls call member
    have busy : ∀ {jobId loop ideaId}, world.Busy jobId loop ideaId →
        (world.insertJob job).Busy jobId loop ideaId := by
      rintro jobId loop ideaId ⟨row, inside, named, maker, here, works⟩
      exact ⟨row, List.mem_append_left _ inside, named, maker, here,
        works.imp World.HasReview.insert fun isHeld => isHeld⟩
    have serves : ∀ {dispatch : Dispatch}, dispatch.Serves world →
        dispatch.Serves (world.insertJob job) := by
      rintro dispatch ⟨⟨jobId, writer, ⟨row, inside, named⟩, own⟩, works⟩
      exact ⟨⟨jobId, writer, ⟨row, List.mem_append_left _ inside, named⟩,
        own.imp (fun same => same) World.HasReview.insert⟩, busy works⟩
    cases call with
    | written write =>
      obtain ⟨auto, known, docs, jobId, writer, works⟩ := old
      exact ⟨auto, known, docs, jobId, writer, busy works⟩
    | dispatching dispatch => exact serves old
    | granted dispatch =>
      refine ⟨serves old.1, old.2.imp World.HasReview.insert fun alone other inside here => ?_⟩
      rcases List.mem_append.mp inside with present | new
      · exact alone other present here
      · rw [List.mem_singleton.mp new] at here
        exact absurd here.symm (apart _ member dispatch rfl)
    | reviewing review =>
      refine ⟨old.1, old.2.imp (fun done => done) ?_⟩
      rintro ⟨row, inside, named⟩
      exact ⟨row, List.mem_append_left _ inside, named⟩
    | judging => exact old
    | searched => exact old
    | _ => trivial

/-! ## A verdict is recorded -/

theorem Going.record (going : Going world) {row : ReviewLogRow}
    (known : row.reviewJobId ∈ world.jobs.map (·.id))
    (waits : ∀ idea ∈ world.ideas, idea.status.Waits →
      ∃ job ∈ world.jobs, job.ideaId = idea.id ∧ world.Open job ∧ job.id ≠ row.reviewJobId) :
    Going { world with reviewLogs := world.reviewLogs ++ [row] } := by
  have reviewed : ∀ {id}, World.Reviewed { world with reviewLogs := world.reviewLogs ++ [row] } id ↔
        world.Reviewed id ∨ id = row.reviewJobId := by
    intro id
    simp [World.Reviewed]
  refine ⟨going.order, going.overtakes, ?_, ?_, ?_, ?_, ?_⟩
  · intro id member
    rcases reviewed.mp member with old | rfl
    · exact going.logged id old
    · exact known
  · intro job member opened
    refine going.openActive job member (opened.imp (fun maker => maker) ?_)
    exact fun review => ⟨review.1, fun done => review.2 (reviewed.mpr (.inl done))⟩
  · intro idea member isWaiting
    obtain ⟨job, inside, here, opened, other⟩ := waits idea member isWaiting
    refine ⟨job, inside, here, opened.imp (fun maker => maker) ?_⟩
    exact fun review => ⟨review.1, fun done => (reviewed.mp done).elim review.2 other⟩
  · intro answer member
    have kept := going.answers answer member
    cases answer with
    | verdict => exact reviewed.mpr (.inl kept)
    | wrote writer => cases writer <;> exact kept
  · intro call member
    have old := going.calls call member
    cases call with
    | reviewing review =>
      exact ⟨old.1, old.2.imp (fun done => reviewed.mpr (.inl done)) fun isHeld => isHeld⟩
    | _ => exact old

/-! ## What the calls find -/

/-- The rows of two jobs with one id are one row. -/
theorem Sound.row_unique
    (sound : Sound world) {first second : LoopJob} (firstMember : first ∈ world.jobs)
    (secondMember : second ∈ world.jobs) (same : first.id = second.id) :
    first = second :=
  List.inj_on_of_nodup_map (job_ids sound) firstMember secondMember same

/-- A line that leaves a job starts with a child of it. -/
theorem Descends.hasReview {second : Origin}
    (descends : Descends world.origins job.origin second) (apart : job.origin ≠ second) :
    world.HasReview job.id := by
  rcases descends.cases_head with same | ⟨child, creates, -⟩
  · exact absurd same apart
  · exact World.hasReview_iff.mpr ⟨child, creates.2.1, creates.2.2⟩

theorem Going.order_jobs (going : Going world) :
    world.jobs.Pairwise fun earlier later =>
      ¬ Descends world.origins later.origin earlier.origin :=
  List.pairwise_map.mp going.order

/-- A maker that a worker holds is the newest, or has its review. -/
theorem Going.newest (lined : Lined world) (going : Going world) {loop : Loop} {ideaId : IdeaId}
    {maker : LoopJob} (newest : newestMaker loop world.jobs ideaId = some maker)
    (member : job ∈ world.jobs) (here : job.ideaId = ideaId)
    (kind : job.kind ∈ loop.makers) (held : job.status.Held) :
    job = maker ∨ world.HasReview job.id := by
  have among : job ∈ world.jobs.filter fun job =>
      job.ideaId = ideaId ∧ job.kind ∈ loop.makers ∧ job.status.Held :=
    List.mem_filter.mpr ⟨member, decide_eq_true ⟨here, kind, held⟩⟩
  obtain ⟨found, makerIdea, -, makerHeld⟩ := newestMaker_mem newest
  rcases pairwise_getLast? (going.order_jobs.filter _) newest among with same | later
  · exact .inl same
  · refine .inr ?_
    rcases lined.related job member maker found (here.trans makerIdea.symm)
      held.active makerHeld.active with forward | backward
    · refine forward.hasReview fun same => ?_
      rw [same] at later
      exact later .refl
    · exact absurd backward later

/-- A verdict finds no other job of its loop active. -/
theorem Going.search (sound : Sound world) (lined : Lined world) (going : Going world)
    (member : .judging review ∈ world.calls) :
    world.search review = none := by
  have knows := sound.knows _ member
  have line := (lined.calls _ member).2
  cases found : world.search review with
  | none => rfl
  | some other =>
    unfold World.search findActive at found
    have inside := List.mem_of_find?_eq_some found
    have criteria := List.find?_some found
    obtain ⟨here, kinds, active, excluded⟩ := of_decide_eq_true criteria
    obtain ⟨row, rowMember, same⟩ := List.mem_map.mp knows.1
    have sameId : row.id = review.job.id := congrArg Origin.id same
    have sameIdea : row.ideaId = review.job.ideaId := congrArg Origin.ideaId same
    have sameKind : row.kind = review.job.kind := congrArg Origin.kind same
    have creator : row.createdByJobId = review.job.createdByJobId :=
      congrArg Origin.createdByJobId same
    have descends := line other inside here active
    rw [← same] at descends
    have ordered := going.order_jobs.and going.overtakes
    rcases pairwise_cases ordered inside rowMember with equal | before | after
    · refine absurd ?_ excluded
      rw [equal, sameId]
      exact List.mem_cons_self
    · refine absurd ?_ excluded
      have created := before.2 review.loop (sameKind.trans (reviewer_of_loop.mp knows.2.1)) kinds
        (here.trans sameIdea.symm) active
      rw [← created, creator]
      exact List.mem_cons_of_mem _ (List.mem_singleton_self _)
    · exact absurd descends after.1

/-- With automatic review, and no other job of the loop active, an idea waits after
a verdict exactly when the verdict started a job. -/
theorem Review.landing_waits (auto : review.autoPlanReview = true) :
    ∃ status, (review.landing none).status = some status ∧
      (status.Waits → (review.landing none).followUp ≠ none) := by
  unfold Review.landing
  cases review.loop with
  | plan =>
    unfold applyIdeaReviewVerdict
    cases review.submission.verdict with
    | changesRequested =>
      simp only [auto, if_true]
      split
      · exact ⟨_, rfl, fun waits => absurd waits (by decide)⟩
      · exact ⟨_, rfl, fun _ => nofun⟩
    | _ => exact ⟨_, rfl, fun waits => absurd waits (by decide)⟩
  | spec =>
    unfold applySpecReviewVerdict
    cases review.submission.verdict with
    | approved => exact ⟨_, rfl, fun _ => nofun⟩
    | changesRequested =>
      dsimp only
      split
      · exact ⟨_, rfl, fun waits => absurd waits (by decide)⟩
      · exact ⟨_, rfl, fun _ => nofun⟩
    | rejected => exact ⟨_, rfl, fun waits => absurd waits (by decide)⟩

/-- A follow-up is a maker. -/
theorem Review.followUp_maker {active : Option LoopJob} {followUp : FollowUp}
    (starts : (review.landing active).followUp = some followUp) :
    makerLoop? followUp.kind ≠ none := by
  rcases Review.landing_followUp starts with ⟨kind, -⟩ | ⟨-, kind, -⟩
  · rw [kind]
    cases review.loop <;> exact nofun
  · rw [kind]
    exact nofun

theorem not_reviewer_of_maker (maker : makerLoop? kind ≠ none) : reviewLoop? kind = none := by
  revert maker
  cases kind <;> decide

/-- The kind that a user starts, and the status of the idea then. -/
theorem ideaKindRule_waits {rule : IdeaStatus × List IdeaStatus}
    (found : ideaKindRule kind = some rule) (waits : rule.1.Waits) :
    makerLoop? kind ≠ none ∨ reviewLoop? kind ≠ none := by
  cases kind <;> cases found <;> revert waits <;> decide

end Reviews
end Scrum4Me
