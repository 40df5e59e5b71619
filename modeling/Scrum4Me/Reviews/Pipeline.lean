import Scrum4Me.Reviews.Steps

/-!
# One pipeline for each idea

`dispatchIdeaJob` looks for an active job of the idea before the transaction that
inserts one, and the dispatch of a review looks for jobs of its own loop only,
after it read a maker that may end meanwhile. Where neither finds the idea
occupied when it inserts, the active jobs of an idea stand in one line, and no
more than one of them waits in the queue. The verdicts need no such condition.
-/

namespace Scrum4Me
namespace Reviews

open Foundation Jobs Origin Relation

/-- `parent` created `child`. -/
def Creates (origins : List Origin) (parent child : Origin) : Prop :=
  parent ∈ origins ∧ child ∈ origins ∧ child.createdByJobId = some parent.id

/-- `second` is `first`, or descends from it through `created_by_job_id`. -/
def Descends (origins : List Origin) (first second : Origin) : Prop :=
  ReflTransGen (Creates origins) first second

/-- The jobs of the idea that wait in the queue. -/
def World.queued (world : World) (ideaId : IdeaId) : List LoopJob :=
  world.jobs.filter fun job => job.ideaId = ideaId ∧ job.status = .queued

/-- An idea has one job in the queue at most, and no two active jobs neither of
which descends from the other. -/
structure World.OnePipeline (world : World) : Prop where
  queued : ∀ ideaId, (world.queued ideaId).length ≤ 1
  related : ∀ first ∈ world.jobs, ∀ second ∈ world.jobs,
    first.ideaId = second.ideaId → first.status.Active → second.status.Active →
      Descends world.origins first.origin second.origin ∨
        Descends world.origins second.origin first.origin

/-- A job that a user starts is inserted while no job of the idea is active; a
review, if its round was not dispatched before, while every active job of the idea
is its maker, or one that the maker descends from. A job does not return to the
queue. -/
def Step.Unoccupied (world : World) : Step → Prop
  | createIdeaJob start _ =>
      ∀ job ∈ world.jobs, job.ideaId = start.ideaId → ¬ job.status.Active
  | createReview dispatch jobId =>
      ¬ world.Taken (dispatch.review jobId) →
        ∀ job ∈ world.jobs, job.ideaId = dispatch.maker.ideaId →
          job.status.Active →
            Descends world.origins job.origin dispatch.maker.origin
  | report jobId status _ _ =>
      status = .queued → ∀ job ∈ world.job? jobId, job.status = .queued
  | _ => True

/-- The job is not in the queue. -/
def World.Taken? (world : World) (jobId : String) : Prop :=
  ∀ job ∈ world.jobs, job.id = jobId → job.status ≠ .queued

/-- What a call in flight knows of the active jobs of its idea. -/
def Call.Lined (world : World) : Call → Prop
  | .dispatching dispatch => world.Taken? dispatch.maker.id
  | .granted dispatch => world.Taken? dispatch.maker.id
  | .judging review =>
      world.Taken? review.job.id ∧
        ∀ job ∈ world.jobs, job.ideaId = review.job.ideaId → job.status.Active →
          Descends world.origins job.origin review.job.origin
  | .searched review _ =>
      world.Taken? review.job.id ∧
        ∀ job ∈ world.jobs, job.ideaId = review.job.ideaId → job.status.Active →
          Descends world.origins job.origin review.job.origin
  | _ => True

/-- The active jobs of an idea stand in one line, and one in the queue at its
end. -/
structure Lined (world : World) : Prop where
  related : ∀ first ∈ world.jobs, ∀ second ∈ world.jobs,
    first.ideaId = second.ideaId → first.status.Active → second.status.Active →
      Descends world.origins first.origin second.origin ∨
        Descends world.origins second.origin first.origin
  childless : ∀ job ∈ world.jobs, job.status = .queued → Forest.Childless world.origins job.origin
  calls : ∀ call ∈ world.calls, call.Lined world

variable {world world' : World} {call : Call}

theorem Descends.mono
    {origins origins' : List Origin} {first second : Origin} (more : origins ⊆ origins')
    (descends : Descends origins first second) :
    Descends origins' first second := by
  induction descends with
  | refl => exact .refl
  | tail _ creates ih => exact ih.tail ⟨more creates.1, more creates.2.1, creates.2.2⟩

/-- What has no child is the end of its line. -/
theorem Descends.eq_of_childless {origins : List Origin} {first second : Origin}
    (descends : Descends origins first second) (childless : Forest.Childless origins first) :
    first = second := by
  rcases descends.cases_head with same | ⟨child, creates, -⟩
  · exact same
  · exact absurd creates.2.2 (childless child creates.2.1)

theorem Lined.onePipeline (sound : Sound world) (lined : Lined world) : world.OnePipeline where
  related := lined.related
  queued := by
    intro ideaId
    have distinct := job_ids sound
    refine length_le_one (distinct.of_map.filter _) ?_
    intro first firstMember second secondMember
    rw [World.queued, List.mem_filter] at firstMember secondMember
    obtain ⟨firstInside, firstQueued⟩ := firstMember
    obtain ⟨secondInside, secondQueued⟩ := secondMember
    obtain ⟨firstIdea, firstQueued⟩ := of_decide_eq_true firstQueued
    obtain ⟨secondIdea, secondQueued⟩ := of_decide_eq_true secondQueued
    have same : first.origin = second.origin := by
      rcases lined.related first firstInside second secondInside
        (firstIdea.trans secondIdea.symm) (.inl firstQueued) (.inl secondQueued)
        with forward | backward
      · exact forward.eq_of_childless (lined.childless first firstInside firstQueued)
      · exact (backward.eq_of_childless (lined.childless second secondInside secondQueued)).symm
    exact List.inj_on_of_nodup_map distinct firstInside secondInside (congrArg Origin.id same)

/-! ## Steps that insert nothing -/

/-- Each row comes from a row of the same job that was as active. -/
def Calmer (jobs jobs' : List LoopJob) : Prop :=
  ∀ job' ∈ jobs', ∃ job ∈ jobs, job'.origin = job.origin ∧
    (job'.status.Active → job.status.Active) ∧ (job'.status = .queued → job.status = .queued)

theorem Calmer.refl (jobs : List LoopJob) : Calmer jobs jobs :=
  fun job member => ⟨job, member, rfl, fun active => active, fun queued => queued⟩

theorem Call.Lined.mono (lined : call.Lined world) (origins : world'.origins = world.origins)
    (calmer : Calmer world.jobs world'.jobs) :
    call.Lined world' := by
  have taken : ∀ {jobId}, world.Taken? jobId → world'.Taken? jobId := by
    intro jobId taken job' member named queued
    obtain ⟨job, inside, same, -, status⟩ := calmer job' member
    have sameId : job'.id = job.id := congrArg Origin.id same
    exact taken job inside (sameId.symm.trans named) (status queued)
  have line : ∀ {ideaId origin}, (∀ job ∈ world.jobs, job.ideaId = ideaId → job.status.Active →
        Descends world.origins job.origin origin) →
      ∀ job ∈ world'.jobs, job.ideaId = ideaId → job.status.Active →
        Descends world'.origins job.origin origin := by
    intro ideaId origin line job' member idea active
    obtain ⟨job, inside, same, status, -⟩ := calmer job' member
    have sameIdea : job'.ideaId = job.ideaId := congrArg Origin.ideaId same
    rw [origins, same]
    exact line job inside (sameIdea.symm.trans idea) (status active)
  cases call with
  | dispatching => exact taken lined
  | granted => exact taken lined
  | judging => exact ⟨taken lined.1, line lined.2⟩
  | searched => exact ⟨taken lined.1, line lined.2⟩
  | _ => trivial

theorem Lined.congr (lined : Lined world) (origins : world'.origins = world.origins)
    (calmer : Calmer world.jobs world'.jobs)
    (calls : ∀ call ∈ world'.calls, call ∈ world.calls ∨ call.Lined world') :
    Lined world' where
  related := by
    intro first firstMember second secondMember idea firstActive secondActive
    obtain ⟨a, aMember, aSame, aActive, -⟩ := calmer first firstMember
    obtain ⟨b, bMember, bSame, bActive, -⟩ := calmer second secondMember
    have aIdea : first.ideaId = a.ideaId := congrArg Origin.ideaId aSame
    have bIdea : second.ideaId = b.ideaId := congrArg Origin.ideaId bSame
    rw [origins, aSame, bSame]
    exact lined.related a aMember b bMember
      (aIdea.symm.trans (idea.trans bIdea)) (aActive firstActive)
      (bActive secondActive)
  childless := by
    intro job member queued
    obtain ⟨old, inside, same, -, status⟩ := calmer job member
    rw [origins, same]
    exact lined.childless old inside (status queued)
  calls := by
    intro call member
    rcases calls call member with old | new
    · exact (lined.calls call old).mono origins calmer
    · exact new

theorem Lined.ends (lined : Lined world) (jobs : world'.jobs = world.jobs)
    (calls : world'.calls ⊆ world.calls) :
    Lined world' := by
  refine lined.congr ?_ ?_ fun call member => .inl (calls member)
  · rw [World.origins, World.origins, jobs]
  · rw [jobs]
    exact .refl world.jobs

theorem Lined.proceeds {next : Call} (lined : Lined world) (knows : next.Lined world) :
    Lined (world.proceeds call next) := by
  refine lined.congr rfl (.refl world.jobs) ?_
  intro other member
  rcases mem_inserted.mp member with old | rfl
  · exact .inl (List.mem_of_mem_erase old)
  · exact .inr (knows.mono rfl (.refl world.jobs))

theorem Lined.begins {next : Call} (lined : Lined world) (knows : next.Lined world) :
    Lined { world with calls := world.calls ++ [next] } := by
  refine lined.congr rfl (.refl world.jobs) ?_
  intro other member
  rcases mem_inserted.mp member with old | rfl
  · exact .inl old
  · exact .inr (knows.mono rfl (.refl world.jobs))

/-! ## A job is inserted at the end of the line -/

/-- A job joins the queue below all active jobs of its idea, while no verdict on
the idea is judged. -/
theorem Lined.insert (sound : Sound world) (lined : Lined world) {job : LoopJob}
    (fresh : job.id ∉ world.jobs.map (·.id)) (distinct : job.createdByJobId ≠ some job.id)
    (below : ∀ other ∈ world.jobs, other.ideaId = job.ideaId → other.status.Active →
        Descends (world.origins ++ [job.origin]) other.origin job.origin)
    (parent : ∀ other ∈ world.jobs, job.createdByJobId = some other.id → other.status ≠ .queued)
    (apart : ∀ call ∈ world.calls, ∀ review active,
      call = .judging review ∨ call = .searched review active → review.job.ideaId ≠ job.ideaId) :
    Lined (world.insertJob job) := by
  have origins : (world.insertJob job).origins = world.origins ++ [job.origin] := by
    simp [World.insertJob, World.origins]
  have more : world.origins ⊆ world.origins ++ [job.origin] :=
    fun _ member => List.mem_append_left _ member
  have unknown : ∀ {origin : Origin}, origin ∈ world.origins → origin.id ≠ job.id :=
    fun member same => fresh_origin fresh (same ▸ List.mem_map_of_mem member)
  refine ⟨?_, ?_, ?_⟩
  · rw [origins]
    intro first firstMember second secondMember idea firstActive secondActive
    rcases List.mem_append.mp firstMember with firstOld | firstNew
    · rcases List.mem_append.mp secondMember with secondOld | secondNew
      · exact (lined.related first firstOld second secondOld idea firstActive
          secondActive).imp (.mono more) (.mono more)
      · rw [List.mem_singleton.mp secondNew] at idea ⊢
        exact .inl (below first firstOld idea firstActive)
    · rw [List.mem_singleton.mp firstNew] at idea ⊢
      rcases mem_inserted.mp secondMember with secondOld | rfl
      · exact .inr (below second secondOld idea.symm secondActive)
      · exact .inl .refl
  · rw [origins]
    intro other member waits child inside createdBy
    rcases List.mem_append.mp member with old | new
    · rcases List.mem_append.mp inside with childOld | childNew
      · exact lined.childless other old waits child childOld createdBy
      · rw [List.mem_singleton.mp childNew] at createdBy
        exact parent other old createdBy waits
    · rw [List.mem_singleton.mp new] at createdBy
      rcases List.mem_append.mp inside with childOld | childNew
      · -- What was there before was created by what was there before.
        rcases sound.forest.grown child childOld with root | ⟨elder, known, follows⟩
        · rw [root.1] at createdBy
          cases createdBy
        · exact unknown known (Option.some.inj (follows.createdBy.symm.trans createdBy))
      · rw [List.mem_singleton.mp childNew] at createdBy
        exact absurd createdBy distinct
  · intro call member
    have old := lined.calls call member
    have known := sound.knows call member
    have taken : ∀ {origin : Origin}, origin ∈ world.origins →
        world.Taken? origin.id → (world.insertJob job).Taken? origin.id := by
      intro origin present taken other inside named
      rcases List.mem_append.mp inside with old | new
      · exact taken other old named
      · rw [List.mem_singleton.mp new] at named
        exact absurd named.symm (unknown present)
    have line : ∀ {ideaId origin}, ideaId ≠ job.ideaId →
        (∀ other ∈ world.jobs, other.ideaId = ideaId → other.status.Active →
          Descends world.origins other.origin origin) →
        ∀ other ∈ (world.insertJob job).jobs, other.ideaId = ideaId → other.status.Active →
            Descends (world.insertJob job).origins other.origin origin := by
      intro ideaId origin different line other inside idea active
      rw [origins]
      rcases List.mem_append.mp inside with old | new
      · exact (line other old idea active).mono more
      · rw [List.mem_singleton.mp new] at idea
        exact absurd idea.symm different
    cases call with
    | dispatching => exact taken known.1 old
    | granted => exact taken known.1 old
    | judging review =>
      exact ⟨taken known.1 old.1, line (apart _ member review none (.inl rfl)) old.2⟩
    | searched review active =>
      exact ⟨taken known.1 old.1, line (apart _ member review active (.inr rfl)) old.2⟩
    | _ => trivial

/-! ## The machine keeps the line -/

theorem calmer_updateWhere
    {matching : LoopJob → Bool} {change : LoopJob → LoopJob} {jobs : List LoopJob}
    (origin : ∀ job, (change job).origin = job.origin)
    (active : ∀ job ∈ jobs, matching job = true → (change job).status.Active → job.status.Active)
    (queued : ∀ job ∈ jobs, matching job = true →
      (change job).status = .queued → job.status = .queued) :
    Calmer jobs (updateWhere matching change jobs) := by
  intro job' member
  rcases mem_updateWhere.mp member with ⟨job, inside, here, rfl⟩ | ⟨inside, -⟩
  · exact ⟨job, inside, origin job, active job inside here, queued job inside here⟩
  · exact ⟨job', inside, rfl, fun held => held, fun waits => waits⟩

/-- Only one call at a time judges a verdict on an idea. -/
theorem Sound.apart (sound : Sound world) (member : call ∈ world.calls) {ideaId : IdeaId}
    (locks : call.locks = some ideaId) :
    ∀ other ∈ world.calls.erase call, ∀ review active,
      other = .judging review ∨ other = .searched review active → review.job.ideaId ≠ ideaId := by
  intro other inside review active judges same
  refine @Sound.alone _ _ sound member ideaId locks (List.mem_filterMap.mpr ⟨other, inside, ?_⟩)
  rcases judges with rfl | rfl <;> exact congrArg some same

theorem Lined.reviewCreated
    (sound : Sound world) (lined : Lined world) {dispatch : Dispatch} {jobId : String}
    (member : .granted dispatch ∈ world.calls) (fresh : jobId ∉ world.jobs.map (·.id))
    (unoccupied : Step.Unoccupied world (.createReview dispatch jobId)) :
    Lined (world.reviewCreated dispatch jobId) := by
  unfold World.reviewCreated
  split
  · exact lined.ends rfl List.erase_subset
  rename_i free
  have knows := sound.knows _ member
  have taken := lined.calls _ member
  have ended := sound.ended (.granted dispatch) (some (.wrote dispatch.writer true))
  have released : Lined (world.ended (.granted dispatch) (some (.wrote dispatch.writer true))) :=
    lined.ends rfl List.erase_subset
  have inserted := @Lined.insert _ ended released (dispatch.review jobId) fresh (by
      intro same
      have named : dispatch.maker.id = jobId := Option.some.inj same
      exact fresh_origin fresh (named ▸ List.mem_map_of_mem knows.1))
    (by
      intro other inside idea active
      refine ((unoccupied free other inside idea active).mono
        (List.subset_append_left _ _)).tail ⟨?_, ?_, rfl⟩
      · exact List.mem_append_left _ knows.1
      · exact List.mem_append_right _ (List.mem_singleton_self _))
    (fun other inside created => taken other inside (Option.some.inj created).symm)
    (sound.apart member rfl)
  exact inserted.ends rfl fun _ found => found

theorem Lined.judged (sound : Sound world) (lined : Lined world) {review : Review}
    (member : .reviewing review ∈ world.calls) :
    Lined (world.judged review) := by
  have knows := sound.knows _ member
  unfold World.judged
  split
  · exact lined.proceeds trivial
  rename_i unreviewed
  dsimp only
  split
  · rename_i active
    obtain ⟨live, found, -, held⟩ := active
    obtain ⟨inside, named⟩ := World.job?_mem (Option.mem_def.mp found)
    have same : live.origin = review.job.origin :=
      sound.forest.eq_of_id (List.mem_map_of_mem inside) knows.1 named
    have childless := sound.childless_of_unreviewed knows.1 knows.2 unreviewed
    refine lined.proceeds ⟨?_, ?_⟩
    · intro job present jobNamed queued
      have equal : job.origin = live.origin :=
        (sound.forest.eq_of_id (List.mem_map_of_mem present) knows.1 jobNamed).trans same.symm
      have row : job = live := List.inj_on_of_nodup_map (job_ids sound) present inside
        (congrArg Origin.id equal)
      rw [← row, queued] at held
      exact nomatch held
    · intro job present idea active
      have liveIdea : live.ideaId = review.job.ideaId := congrArg Origin.ideaId same
      rcases lined.related job present live inside (idea.trans liveIdea.symm)
        active held.active with forward | backward
      · exact same ▸ forward
      · -- A review without a verdict is the end of its line.
        rw [same] at backward
        rw [← backward.eq_of_childless childless]
        exact .refl
  · exact lined.ends rfl List.erase_subset

theorem Lined.landed (sound : Sound world) (lined : Lined world) {review : Review}
    {active : Option LoopJob} {jobId : String} (member : .searched review active ∈ world.calls)
    (fresh : jobId ∉ world.jobs.map (·.id)) :
    Lined (world.landed review active jobId) := by
  have knows := sound.knows _ member
  obtain ⟨taken, line⟩ := lined.calls _ member
  unfold World.landed
  dsimp only
  split
  · exact lined.ends rfl List.erase_subset
  have ended := sound.ended (.searched review active) none
  have released : Lined (world.ended (.searched review active) none) :=
    lined.ends rfl List.erase_subset
  have written : Lined { (world.ended (.searched review active) none) with
      jobs := world.jobs ++
        ((review.landing active).followUp.map (review.followUpJob jobId)).toList } := by
    cases (review.landing active).followUp with
    | none =>
      refine released.ends ?_ fun _ found => found
      exact List.append_nil _
    | some followUp =>
      refine (@Lined.insert _ ended released (review.followUpJob jobId followUp)
        fresh ?_ ?_ ?_ (sound.apart member rfl)).ends rfl fun _ found => found
      · intro same
        have named : review.job.id = jobId := Option.some.inj same
        exact fresh_origin fresh (named ▸ List.mem_map_of_mem knows.1)
      · intro other inside idea held
        refine ((line other inside idea held).mono (List.subset_append_left _ _)).tail ⟨?_, ?_, rfl⟩
        · exact List.mem_append_left _ knows.1
        · exact List.mem_append_right _ (List.mem_singleton_self _)
      · exact fun other inside created => taken other inside (Option.some.inj created).symm
  refine (@Lined.begins _ (.landed review (review.landing active).outcome) written
    trivial).ends rfl fun _ found => found

theorem Lined.execute (step : Step) (sound : Sound world) (lined : Lined world)
    (unoccupied : step.Unoccupied world) :
    Lined (execute world step) := by
  unfold Reviews.execute
  split
  case isFalse => exact lined
  case isTrue enabled =>
  cases step with
  | dispatchIdeaJob start => exact @Lined.begins _ (.starting start) lined trivial
  | createIdeaJob start jobId =>
    obtain ⟨member, fresh, free⟩ := enabled
    have root : (start.job jobId).createdByJobId = none := rfl
    have inserted := @Lined.insert _ sound lined (start.job jobId) fresh
      (fun same => absurd (same.symm.trans root) (Option.some_ne_none _))
      (fun other inside idea active => absurd active (unoccupied other inside idea))
      (fun other _ same => absurd (same.symm.trans root) (Option.some_ne_none _))
      (by
        intro call inside review active judges same
        refine free ⟨call, inside, ?_⟩
        rcases judges with rfl | rfl <;> exact congrArg some same)
    exact inserted.ends rfl List.erase_subset
  | report jobId status tokenId summary =>
    obtain ⟨job, found, terminal⟩ := enabled
    obtain ⟨inside, named⟩ := World.job?_mem (Option.mem_def.mp found)
    have only : ∀ other ∈ world.jobs, decide (other.id = jobId) = true →
        other = job := fun other present here =>
      List.inj_on_of_nodup_map (job_ids sound) present inside
        ((of_decide_eq_true here).trans named.symm)
    refine lined.congr (origins_updateWhere ?_) (calmer_updateWhere ?_ ?_ ?_)
      fun call member => .inl member
    · exact fun _ => rfl
    · exact fun _ => rfl
    · intro other present here active
      exact only other present here ▸ terminal active
    · intro other present here queued
      exact only other present here ▸ unoccupied queued job found
  | updateIdea => exact lined.ends rfl fun _ member => member
  | writeDocument write =>
    exact (@Lined.begins _ (.written write) lined trivial).ends rfl fun _ member => member
  | readMaker write =>
    unfold perform
    dsimp only
    split
    · rename_i dispatch read
      obtain ⟨newest, -⟩ := World.dispatch?_maker read
      obtain ⟨found, -, -, held⟩ := newestMaker_mem newest
      refine lined.proceeds fun job inside named queued => ?_
      rw [← List.inj_on_of_nodup_map (job_ids sound) inside found named, queued] at held
      exact nomatch held
    · exact lined.ends rfl List.erase_subset
  | lockForDispatch dispatch =>
    have taken := lined.calls _ enabled.1
    unfold perform
    dsimp only
    split
    · exact lined.proceeds taken
    · exact lined.ends rfl List.erase_subset
  | createReview dispatch jobId => exact lined.reviewCreated sound enabled.1 enabled.2 unoccupied
  | submitReview submission autoPlanReview now =>
    unfold perform
    dsimp only
    cases world.review? submission autoPlanReview now with
    | none =>
      refine lined.ends rfl ?_
      exact fun _ member => (List.append_nil world.calls) ▸ member
    | some review => exact @Lined.begins _ (.reviewing review) lined trivial
  | lockForVerdict review => exact lined.judged sound enabled.1
  | searchLoop review =>
    have knows := lined.calls _ enabled
    exact lined.proceeds knows
  | land review active jobId => exact lined.landed sound enabled.1 enabled.2
  | stamp review outcome =>
    refine lined.congr (origins_updateWhere ?_) (calmer_updateWhere ?_ ?_ ?_)
      fun call member => .inl (List.mem_of_mem_erase member)
    · exact fun _ => rfl
    · exact fun _ => rfl
    · exact fun _ _ _ active => active
    · exact fun _ _ _ queued => queued
  | drop call => exact lined.ends rfl List.erase_subset

theorem lined_initial (ideas : List IdeaRow) : Lined (World.initial ideas) where
  related := List.forall_mem_nil _
  childless := List.forall_mem_nil _
  calls := List.forall_mem_nil _

/-- In every run whose insertions find the idea unoccupied, every state has one
pipeline for each idea. Verdicts insert under no condition. -/
theorem one_pipeline (ideas : List IdeaRow) (steps : List Step)
    (unoccupied : EveryStep execute (fun world step => step.Unoccupied world)
      (World.initial ideas) steps)
    (earlier : List Step) (isPrefix : earlier <+: steps) :
    (run execute (World.initial ideas) earlier).OnePipeline := by
  have preserved : ∀ world step, Sound world ∧ Lined world →
      step.Unoccupied world →
        Sound (execute world step) ∧ Lined (execute world step) :=
    fun world step invariant free =>
      ⟨sound_execute world step invariant.1,
        invariant.2.execute step invariant.1 free⟩
  have kept := @run_invariant _ _ execute _
    (fun world => Sound world ∧ Lined world) preserved _ earlier
    ⟨sound_initial ideas, lined_initial ideas⟩ (unoccupied.of_prefix isPrefix)
  exact kept.2.onePipeline kept.1

/-! ## Runs -/

namespace PipelineRuns

def idea : IdeaRow where
  id := .sample
  productId := "product"
  status := .grilled

def start (kind : JobKind) : Start where
  kind := kind
  ideaId := idea.id
  userId := "user"
  productId := "product"

/-- One user starts a maker of the plan, which a worker claims and writes. -/
def written : List Step :=
  [.dispatchIdeaJob (start .ideaMakePlan),
    .createIdeaJob (start .ideaMakePlan) "maker",
    .report "maker" .claimed (some "worker") none,
    .writeDocument
      { loop := .plan
        ideaId := idea.id
        docId := "doc"
        revisionId := "revision"
        autoPlanReview := true
        content := "Plan ready"
        writer := some "maker" },
    .readMaker
      { loop := .plan
        ideaId := idea.id
        docId := "doc"
        revisionId := "revision"
        autoPlanReview := true
        content := "Plan ready"
        writer := some "maker" }]

def dispatch : Dispatch where
  loop := .plan
  maker := { (start .ideaMakePlan).job "maker" with
    status := .claimed
    claimedByTokenId := some "worker" }
  docId := some "doc"
  docRevisionId := "revision"
  writer := some "maker"

/-- The review of the plan is inserted while its maker runs. -/
def reviewed : List Step :=
  written ++ [.lockForDispatch dispatch, .createReview dispatch "review"]

/-- Two calls of `dispatchIdeaJob` look before either inserts. -/
def twice : List Step :=
  [.dispatchIdeaJob (start .ideaGrill), .dispatchIdeaJob (start .ideaMakePlan),
    .createIdeaJob (start .ideaGrill) "first",
    .createIdeaJob (start .ideaMakePlan) "second"]

/-- The maker ends between the two reads of its dispatch, and a user starts the
next job. -/
def overtaken : List Step :=
  written ++ [.report "maker" .done (some "worker") none,
      .dispatchIdeaJob (start .ideaGrill), .createIdeaJob (start .ideaGrill) "grill",
      .lockForDispatch dispatch, .createReview dispatch "review"]

end PipelineRuns

open PipelineRuns in
/-- The review of a maker that still runs, below it in one line. -/
theorem one_pipeline_reviewed :
    (run execute (World.initial [idea]) reviewed).OnePipeline ∧
      (run execute (World.initial [idea]) reviewed).jobs.length = 2 := by
  refine ⟨one_pipeline [idea] reviewed ?_ reviewed List.prefix_rfl,
    by decide +kernel⟩
  refine ⟨trivial, ?_, nofun, trivial, trivial, trivial, ?_, trivial⟩
  · exact List.forall_mem_nil _
  · intro _ job member _ _
    have only : ∀ job ∈ (run execute (World.initial [idea])
        (written ++ [.lockForDispatch dispatch])).jobs,
          job.origin = dispatch.maker.origin := by
      decide +kernel
    rw [only job member]
    exact .refl

open PipelineRuns in
/-- Two users' jobs wait in the queue; so do a user's job and the review of a maker
that has ended. -/
theorem two_pipelines :
    ¬ (run execute (World.initial [idea]) twice).OnePipeline ∧
      ¬ (run execute (World.initial [idea]) overtaken).OnePipeline := by
  have both : ¬ ((run execute (World.initial [idea]) twice).queued idea.id).length
      ≤ 1 ∧ ¬ ((run execute (World.initial [idea]) overtaken).queued
        idea.id).length ≤ 1 := by
    decide +kernel
  exact ⟨fun one => both.1 (one.queued idea.id),
    fun one => both.2 (one.queued idea.id)⟩

end Reviews
end Scrum4Me
