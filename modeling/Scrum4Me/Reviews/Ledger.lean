import Mathlib.Data.List.Forall2
import Scrum4Me.Reviews.Steps

/-!
# The log of reviews on the idea

The log is appended to a value that the call read before its transaction. No
verdict is lost all the same: an idea has one active review of its plan at most,
and while a transaction judges it no other review of the plan can be active, so a
review that is active and without a verdict has read the log as it is.
-/

namespace Scrum4Me
namespace Reviews

open Foundation Jobs Origin

namespace World

/-- The logs of the ideas. -/
def logs (world : World) : List (IdeaId × Option PlanReviewLog) :=
  world.ideas.map fun idea => (idea.id, idea.planReviewLog)

/-- The log of an idea. -/
def logOf (world : World) (ideaId : IdeaId) : Option PlanReviewLog :=
  (world.logs.find? fun entry => entry.1 = ideaId).bind (·.2)

/-- The verdicts on plans of an idea. -/
def planReviews (world : World) (ideaId : IdeaId) : List ReviewLogRow :=
  world.reviewLogs.filter fun row =>
    row.kind = .ideaReviewPlan ∧ row.ideaId = ideaId

/-- An active review of the plan of an idea. -/
def ActiveReview (world : World) (ideaId : IdeaId) (id : String) : Prop :=
  ∃ job ∈ world.jobs, job.id = id ∧ job.ideaId = ideaId ∧
    job.kind = .ideaReviewPlan ∧ job.status.Active

end World

/-- A round of the log records a verdict. -/
structure Records
    (origins : List Origin) (entry : ReviewRound)
    (row : ReviewLogRow) : Prop where
  round : ∃ origin ∈ origins,
    origin.id = row.reviewJobId ∧ entry.round = origin.round
  issues : entry.issues = row.findings.map Finding.issue
  score : entry.score = row.verdict.score
  converged : entry.converged = decide (row.verdict = .approved)

theorem Records.mono {origins origins' : List Origin} {entry : ReviewRound} {row : ReviewLogRow}
    (more : origins ⊆ origins') (records : Records origins entry row) :
    Records origins' entry row := by
  obtain ⟨origin, member, named, round⟩ := records.round
  exact { records with round := ⟨origin, more member, named, round⟩ }

/-- What a call that is about a plan knows of its log and of active reviews. -/
def Call.Current (world : World) : Call → Prop
  | .starting start => start.kind ≠ .ideaReviewPlan
  | .granted dispatch =>
      dispatch.loop = .plan →
        ∀ id, ¬ world.ActiveReview dispatch.maker.ideaId id
  | .reviewing review =>
      review.loop = .plan → review.job.id ∉ world.reviewed →
        world.ActiveReview review.job.ideaId review.job.id →
          world.logOf review.job.ideaId = review.planReviewLog
  | .judging review =>
      review.loop = .plan →
        world.logOf review.job.ideaId = review.planReviewLog ∧
          ∀ id, world.ActiveReview review.job.ideaId id → id = review.job.id
  | .searched review _ =>
      review.loop = .plan →
        world.logOf review.job.ideaId = review.planReviewLog ∧
          ∀ id, world.ActiveReview review.job.ideaId id → id = review.job.id
  | _ => True

/-- The logs of the ideas hold the verdicts, one round each. -/
structure Ledger (world : World) : Prop where
  ids : (world.logs.map Prod.fst).Nodup
  recorded : ∀ entry ∈ world.logs,
    List.Forall₂ (Records world.origins) (roundsOf entry.2) (world.planReviews entry.1)
  alone : ∀ ideaId first second, world.ActiveReview ideaId first →
    world.ActiveReview ideaId second → first = second
  current : ∀ call ∈ world.calls, call.Current world

variable {world world' : World} {call : Call}

/-! ## Steps that leave the logs alone -/

/-- Fewer active reviews and the same logs leave what a call knows. -/
theorem Call.Current.mono (current : call.Current world) (logs : world'.logs = world.logs)
    (reviewed : world.reviewed ⊆ world'.reviewed)
    (active : ∀ ideaId id, world'.ActiveReview ideaId id → world.ActiveReview ideaId id) :
    call.Current world' := by
  have logOf : world'.logOf = world.logOf := by
    funext ideaId
    rw [World.logOf, World.logOf, logs]
  cases call with
  | starting => exact current
  | granted dispatch =>
    intro plan id present
    exact current plan id (active _ _ present)
  | reviewing review =>
    intro plan unreviewed present
    rw [logOf]
    exact current plan (fun done => unreviewed (reviewed done)) (active _ _ present)
  | written => trivial
  | dispatching => trivial
  | landed => trivial
  | _ =>
    intro plan
    rw [logOf]
    exact ⟨(current plan).1, fun id present => (current plan).2 id (active _ _ present)⟩

/-- The logs are left alone, and no review of a plan becomes active. -/
theorem Ledger.congr (ledger : Ledger world) (logs : world'.logs = world.logs)
    (reviewLogs : world'.reviewLogs = world.reviewLogs) (origins : world.origins ⊆ world'.origins)
    (active : ∀ ideaId id, world'.ActiveReview ideaId id → world.ActiveReview ideaId id)
    (calls : ∀ call ∈ world'.calls, call ∈ world.calls ∨ call.Current world') :
    Ledger world' where
  ids := by
    rw [logs]
    exact ledger.ids
  recorded := by
    intro entry member
    rw [logs] at member
    rw [World.planReviews, reviewLogs]
    exact (ledger.recorded entry member).imp fun _ _ records => records.mono origins
  alone := fun ideaId first second firstActive secondActive =>
    ledger.alone ideaId first second (active _ _ firstActive) (active _ _ secondActive)
  current := by
    intro call member
    rcases calls call member with old | new
    · refine (ledger.current call old).mono logs ?_ active
      rw [World.reviewed, World.reviewed, reviewLogs]
      exact fun _ found => found
    · exact new

/-- The rows of jobs are the same, and calls only end. -/
theorem Ledger.ends (ledger : Ledger world) (logs : world'.logs = world.logs)
    (reviewLogs : world'.reviewLogs = world.reviewLogs) (jobs : world'.jobs = world.jobs)
    (calls : world'.calls ⊆ world.calls) :
    Ledger world' := by
  refine ledger.congr logs reviewLogs ?_ ?_ fun call member => .inl (calls member)
  · rw [World.origins, World.origins, jobs]
    exact fun _ member => member
  · intro ideaId id present
    rwa [World.ActiveReview, jobs] at present

/-- A call goes on. -/
theorem Ledger.proceeds {next : Call} (ledger : Ledger world) (current : next.Current world) :
    Ledger (world.proceeds call next) := by
  refine ledger.congr rfl rfl (fun _ member => member) (fun _ _ present => present) ?_
  intro other member
  rcases mem_inserted.mp member with old | rfl
  · exact .inl (List.mem_of_mem_erase old)
  · exact .inr (current.mono rfl (fun _ found => found) fun _ _ present => present)

/-- A job that is no review of a plan is inserted. -/
theorem Ledger.insert {job : LoopJob} (ledger : Ledger world) (other : job.kind ≠ .ideaReviewPlan) :
    Ledger (world.insertJob job) := by
  refine ledger.congr rfl rfl ?_ ?_ fun call member => .inl member
  · intro origin member
    show origin ∈ List.map _ (world.jobs ++ [job])
    rw [List.map_append]
    exact List.mem_append_left _ member
  · rintro ideaId id ⟨found, member, named, idea, kind, active⟩
    rcases List.mem_append.mp member with old | new
    · exact ⟨found, old, named, idea, kind, active⟩
    · rw [List.mem_singleton.mp new] at kind
      exact absurd kind other

variable {ideaId : IdeaId}

/-- An idea is updated beside its log. -/
theorem logs_updateIdea {change : IdeaRow → IdeaRow} (id : ∀ idea, (change idea).id = idea.id)
    (log : ∀ idea, (change idea).planReviewLog = idea.planReviewLog) :
    (world.updateIdea ideaId change).logs = world.logs :=
  map_updateWhere_of_unchanged (fun idea => by rw [id, log]) world.ideas

/-! ## The log that a call reads -/

theorem World.logOf_of_mem {log : Option PlanReviewLog} (ids : (world.logs.map Prod.fst).Nodup)
    (member : (ideaId, log) ∈ world.logs) :
    world.logOf ideaId = log := by
  cases found : world.logs.find? fun entry => entry.1 = ideaId with
  | none =>
    have absent := List.find?_eq_none.mp found _ member
    simp at absent
  | some entry =>
    have same : entry.1 = ideaId := by simpa using List.find?_some found
    have equal : entry = (ideaId, log) :=
      List.inj_on_of_nodup_map ids (List.mem_of_find?_eq_some found) member same
    rw [World.logOf, found, equal]
    rfl

theorem World.logOf_of_idea? {idea : IdeaRow} (ids : (world.logs.map Prod.fst).Nodup)
    (found : world.idea? ideaId = some idea) :
    world.logOf ideaId = idea.planReviewLog := by
  have same : idea.id = ideaId := by simpa using List.find?_some found
  refine World.logOf_of_mem ids ?_
  rw [← same]
  exact List.mem_map_of_mem (List.mem_of_find?_eq_some found)

variable {review : Review}

/-- A review that may still have its verdict is an active review. -/
theorem Sound.activeReview (sound : Sound world) (member : review.job.origin ∈ world.origins)
    (loop : reviewLoop? review.job.kind = some review.loop) (plan : review.loop = .plan)
    (active : reviewStillActive (world.job? review.job.id) review.submission.tokenId) :
    world.ActiveReview review.job.ideaId review.job.id := by
  obtain ⟨live, found, -, held⟩ := active
  obtain ⟨inside, named⟩ := World.job?_mem (Option.mem_def.mp found)
  have same : live.origin = review.job.origin :=
    sound.forest.eq_of_id (List.mem_map_of_mem inside) member named
  have kind : live.kind = review.job.kind := congrArg Origin.kind same
  refine ⟨live, inside, named, congrArg Origin.ideaId same, ?_, held.active⟩
  rw [kind, reviewer_of_loop.mp loop, plan]
  rfl

/-! ## A review is inserted -/

variable {active : Option LoopJob} {jobId : String}

theorem Ledger.reviewCreated (sound : Sound world) (ledger : Ledger world) {dispatch : Dispatch}
    (member : .granted dispatch ∈ world.calls) (fresh : jobId ∉ world.jobs.map (·.id)) :
    Ledger (world.reviewCreated dispatch jobId) := by
  unfold World.reviewCreated
  split
  · exact ledger.ends rfl rfl rfl List.erase_subset
  have logs := @logs_updateIdea (world.insertJob (dispatch.review jobId)) dispatch.maker.ideaId
    (fun idea => { idea with status := dispatch.loop.reviewing })
    (fun _ => rfl) (fun _ => rfl)
  cases loop : dispatch.loop with
  | spec =>
    have inserted : Ledger (world.insertJob (dispatch.review jobId)) :=
      ledger.insert (by simp [Dispatch.review, loop, Loop.reviewer])
    rw [loop] at logs
    exact inserted.ends logs rfl rfl List.erase_subset
  | plan =>
    rw [loop] at logs
    -- Before, no review of the plan was active: now this one is.
    have idle := ledger.current _ member loop
    have onlyNew : ∀ {ideaId id}, World.ActiveReview
        (world.insertJob (dispatch.review jobId)) ideaId id →
        id = jobId ∧ ideaId = dispatch.maker.ideaId ∨ world.ActiveReview ideaId id := by
      rintro ideaId id ⟨job, inside, named, idea, kind, active⟩
      rcases List.mem_append.mp inside with old | new
      · exact .inr ⟨job, old, named, idea, kind, active⟩
      · rw [List.mem_singleton.mp new] at named idea
        exact .inl ⟨named.symm, idea.symm⟩
    refine ⟨?_, ?_, ?_, ?_⟩
    · exact (congrArg (List.map Prod.fst) logs).symm ▸ ledger.ids
    · intro entry inside
      refine (ledger.recorded entry (logs ▸ inside)).imp fun _ _ records => records.mono ?_
      intro origin found
      show origin ∈ List.map _ (world.jobs ++ [_])
      rw [List.map_append]
      exact List.mem_append_left _ found
    · intro ideaId first second firstActive secondActive
      rcases onlyNew firstActive with ⟨rfl, rfl⟩ | firstOld
      · rcases onlyNew secondActive with ⟨rfl, -⟩ | secondOld
        · rfl
        · exact absurd secondOld (idle _)
      · rcases onlyNew secondActive with ⟨-, rfl⟩ | secondOld
        · exact absurd firstOld (idle _)
        · exact ledger.alone ideaId first second firstOld secondOld
    · intro call inside
      have remains : call ∈ world.calls.erase (.granted dispatch) := inside
      have known := sound.knows call (List.mem_of_mem_erase remains)
      have current := ledger.current call (List.mem_of_mem_erase remains)
      have apart : call.locks ≠ some dispatch.maker.ideaId := by
        intro locks
        exact @Sound.alone _ _ sound member dispatch.maker.ideaId rfl
          (List.mem_filterMap.mpr ⟨call, remains, locks⟩)
      have logOf : ∀ ideaId, World.logOf ((((world.insertJob (dispatch.review jobId)).updateIdea
            dispatch.maker.ideaId fun idea => { idea with status := Loop.plan.reviewing }).logIdea
            (dispatch.ideaLog jobId)).ended (.granted dispatch)
              (some (.wrote dispatch.writer true))) ideaId =
            world.logOf ideaId := by
        intro ideaId
        exact congrArg (fun entries =>
          (List.find? (fun entry => entry.1 = ideaId) entries).bind (·.2)) logs
      cases call with
      | granted other =>
        intro plan id present
        rcases onlyNew present with ⟨-, same⟩ | old
        · exact apart (congrArg some same)
        · exact current plan id old
      | reviewing review =>
        intro plan unreviewed present
        rw [logOf]
        rcases onlyNew present with ⟨same, -⟩ | old
        · -- The new job was not there to be read.
          have inside : jobId ∈ world.origins.map (·.id) := same ▸ List.mem_map_of_mem known.1
          exact absurd inside (fresh_origin fresh)
        · exact current plan unreviewed old
      | starting => exact current
      | written => trivial
      | dispatching => trivial
      | landed => trivial
      | _ =>
        intro plan
        rw [logOf]
        refine ⟨(current plan).1, fun id present => ?_⟩
        rcases onlyNew present with ⟨-, same⟩ | old
        · exact absurd (congrArg some same) apart
        · exact (current plan).2 id old

/-! ## A verdict is written -/

/-- The follow-up of a verdict is no review. -/
theorem Review.followUp_kind {followUp : FollowUp}
    (starts : (review.landing active).followUp = some followUp) :
    followUp.kind ≠ .ideaReviewPlan := by
  rcases Review.landing_followUp starts with ⟨kind, -⟩ | ⟨-, kind, -⟩
  · rw [kind]
    cases review.loop <;> exact nofun
  · rw [kind]
    exact nofun

/-- The rows of ideas after a verdict. -/
def Review.ideas (review : Review) (landing : Landing) (ideas : List IdeaRow) :
    List (IdeaId × Option PlanReviewLog) :=
  (updateWhere (fun idea => idea.id = review.job.ideaId) (review.updateIdea landing) ideas).map
      fun idea => (idea.id, idea.planReviewLog)

/-- What a verdict on a plan makes of the logs. -/
theorem Review.ideas_plan (landing : Landing) (plan : review.loop = .plan) :
    review.ideas landing world.ideas =
      updateWhere (fun entry => entry.1 = review.job.ideaId) (fun entry => (entry.1,
          some (appendPlanReviewRound review.planReviewLog review.roundInput))) world.logs := by
  refine @map_updateWhere _ _ (fun idea : IdeaRow => (idea.id, idea.planReviewLog))
    _ _ (fun entry => entry.1 = review.job.ideaId)
    (fun entry => (entry.1, some (appendPlanReviewRound review.planReviewLog review.roundInput)))
    (fun _ => rfl) (fun idea => ?_) world.ideas
  rw [Review.updateIdea, plan]

/-- A verdict on a spec leaves them alone. -/
theorem Review.ideas_spec (landing : Landing) (spec : review.loop = .spec) :
    review.ideas landing world.ideas = world.logs := by
  refine map_updateWhere_of_unchanged (fun idea => ?_) world.ideas
  rw [Review.updateIdea, spec]

theorem Review.fst_ideas (review : Review) (landing : Landing) :
    (review.ideas landing world.ideas).map Prod.fst = world.logs.map Prod.fst := by
  cases loop : review.loop with
  | plan =>
    rw [Review.ideas_plan landing loop]
    refine map_updateWhere_of_unchanged ?_ world.logs
    exact fun _ => rfl
  | spec => rw [Review.ideas_spec landing loop]

/-- The log of another idea is found as before. -/
theorem Review.find?_ideas (landing : Landing)
    (apart : review.loop = .plan → ideaId ≠ review.job.ideaId) :
    (review.ideas landing world.ideas).find? (fun entry => entry.1 = ideaId) =
      world.logs.find? fun entry => entry.1 = ideaId := by
  cases loop : review.loop with
  | plan =>
    rw [Review.ideas_plan landing loop]
    refine find?_updateWhere_apart fun entry found => ?_
    have other : entry.1 ≠ ideaId := fun same =>
      apart loop (same.symm.trans (of_decide_eq_true found))
    exact ⟨decide_eq_false other, decide_eq_false other⟩
  | spec => rw [Review.ideas_spec landing loop]

/-- The new round records the verdict. -/
theorem Review.records {origins : List Origin} (member : review.job.origin ∈ origins) :
    Records origins review.roundInput.entry review.logRow where
  round := ⟨review.job.origin, member, rfl, rfl⟩
  issues := rfl
  score := rfl
  converged := rfl

/-- The jobs after a verdict: reviews of plans are as active as before. -/
theorem activeReview_landed {id : String} (present : ∃ job ∈ world.jobs ++
        ((review.landing active).followUp.map (review.followUpJob jobId)).toList,
      job.id = id ∧ job.ideaId = ideaId ∧ job.kind = .ideaReviewPlan ∧ job.status.Active) :
    world.ActiveReview ideaId id := by
  obtain ⟨job, member, named, idea, kind, held⟩ := present
  rcases List.mem_append.mp member with old | new
  · exact ⟨job, old, named, idea, kind, held⟩
  · obtain ⟨followUp, starts, rfl⟩ := Option.map_eq_some_iff.mp (Option.mem_toList.mp new)
    exact absurd kind (Review.followUp_kind starts)

theorem Ledger.landed (sound : Sound world) (ledger : Ledger world)
    (member : .searched review active ∈ world.calls) :
    Ledger (world.landed review active jobId) := by
  have knows := sound.knows _ member
  unfold World.landed
  dsimp only
  split
  · exact ledger.ends rfl rfl rfl List.erase_subset
  have more : world.origins ⊆ List.map LoopJob.origin (world.jobs ++
      ((review.landing active).followUp.map (review.followUpJob jobId)).toList) := by
    intro origin found
    rw [List.map_append]
    exact List.mem_append_left _ found
  have kind := reviewer_of_loop.mp knows.2.1
  have current := ledger.current _ member
  refine ⟨?_, ?_, ?_, ?_⟩
  · exact (Review.fst_ideas review (review.landing active)).symm ▸ ledger.ids
  · intro entry inside
    change entry ∈ review.ideas (review.landing active) world.ideas at inside
    show List.Forall₂ _ _ ((world.reviewLogs ++ [review.logRow]).filter _)
    rw [List.filter_append]
    cases loop : review.loop with
    | spec =>
      rw [Review.ideas_spec _ loop] at inside
      have skipped : review.logRow.kind ≠ .ideaReviewPlan := by
        show review.job.kind ≠ _
        rw [kind, loop]
        exact nofun
      rw [List.filter_cons_of_neg (by simp [skipped]), List.filter_nil, List.append_nil]
      exact (ledger.recorded entry inside).imp fun _ _ records => records.mono more
    | plan =>
      rw [Review.ideas_plan _ loop, mem_updateWhere] at inside
      rcases inside with ⟨old, found, here, rfl⟩ | ⟨found, elsewhere⟩
      · -- The idea of the verdict: one round more, one row more.
        have same : old.1 = review.job.ideaId := of_decide_eq_true here
        have log : old.2 = review.planReviewLog := by
          rw [← (current loop).1, ← same]
          exact (World.logOf_of_mem ledger.ids found).symm
        have taken : review.logRow.kind = .ideaReviewPlan ∧ review.logRow.ideaId = old.1 := by
          refine ⟨?_, same.symm⟩
          show review.job.kind = _
          rw [kind, loop]
          rfl
        rw [List.filter_cons_of_pos (by simpa using taken), List.filter_nil]
        have before := (ledger.recorded old found).imp fun _ _ records => Records.mono more records
        rw [log] at before
        exact List.rel_append before (.cons (Review.records (more knows.1)) .nil)
      · have other : review.logRow.ideaId ≠ entry.1 := fun same =>
          of_decide_eq_false elsewhere same.symm
        rw [List.filter_cons_of_neg (by simp [other]), List.filter_nil, List.append_nil]
        exact (ledger.recorded entry found).imp fun _ _ records => records.mono more
  · intro ideaId first second firstActive secondActive
    exact ledger.alone ideaId first second (activeReview_landed firstActive)
      (activeReview_landed secondActive)
  · intro call inside
    rcases List.mem_append.mp inside with remains | new
    swap
    · rw [List.mem_singleton.mp new]
      trivial
    have old := ledger.current call (List.mem_of_mem_erase remains)
    have known := sound.knows call (List.mem_of_mem_erase remains)
    have apart : call.locks ≠ some review.job.ideaId := by
      intro locks
      exact @Sound.alone _ _ sound member review.job.ideaId rfl
        (List.mem_filterMap.mpr ⟨call, remains, locks⟩)
    cases call with
    | granted dispatch =>
      intro plan id present
      exact old plan id (activeReview_landed present)
    | reviewing other =>
      intro plan unreviewed present
      have before := activeReview_landed present
      have pending : other.job.id ∉ world.reviewed ∧ other.job.id ≠ review.job.id := by
        change other.job.id ∉ List.map _ (world.reviewLogs ++ [review.logRow])
          at unreviewed
        rw [List.map_append, List.mem_append] at unreviewed
        exact ⟨fun done => unreviewed (.inl done),
          fun same => unreviewed (.inr (same ▸ List.mem_singleton_self _))⟩
      have log := old plan pending.1 before
      rw [← log]
      refine congrArg (Option.bind · (·.2)) (Review.find?_ideas _ ?_)
      intro loop same
      -- Of this idea only the judged review can be active.
      exact pending.2 ((current loop).2 _ (same ▸ before))
    | starting => exact old
    | written => trivial
    | dispatching => trivial
    | landed => trivial
    | _ =>
      intro plan
      refine ⟨?_, fun id present => (old plan).2 id (activeReview_landed present)⟩
      rw [← (old plan).1]
      exact congrArg (Option.bind · (·.2)) (Review.find?_ideas _ fun _ same =>
        apart (congrArg some same))

/-! ## The machine keeps the logs -/

/-- No user starts the review of a plan. -/
def NoManualReview : Step → Prop
  | .dispatchIdeaJob start => start.kind ≠ .ideaReviewPlan
  | _ => True

instance (step : Step) : Decidable (NoManualReview step) := by
  apply @Step.casesOn (fun step => Decidable (NoManualReview step)) step <;>
    intros <;> dsimp only [NoManualReview] <;> infer_instance

theorem Ledger.judged (sound : Sound world) (ledger : Ledger world)
    (member : .reviewing review ∈ world.calls) :
    Ledger (world.judged review) := by
  have knows := sound.knows _ member
  unfold World.judged
  split
  · exact ledger.proceeds trivial
  rename_i unreviewed
  dsimp only
  split
  · rename_i active
    refine ledger.proceeds fun plan => ?_
    have present := sound.activeReview knows.1 knows.2 plan active
    exact ⟨ledger.current _ member plan unreviewed present, fun id other =>
      ledger.alone _ _ _ other present⟩
  · exact ledger.ends rfl rfl rfl List.erase_subset

theorem Ledger.execute (step : Step) (sound : Sound world) (ledger : Ledger world)
    (started : NoManualReview step) :
    Ledger (execute world step) := by
  unfold Reviews.execute
  split
  case isFalse => exact ledger
  case isTrue enabled =>
  cases step with
  | dispatchIdeaJob start =>
    refine ledger.congr rfl rfl (fun _ member => member) (fun _ _ present => present) ?_
    intro call member
    rcases mem_inserted.mp member with old | rfl
    · exact .inl old
    · exact .inr started
  | createIdeaJob start jobId =>
    have inserted : Ledger (world.insertJob (start.job jobId)) :=
      ledger.insert (ledger.current _ enabled.1)
    refine inserted.ends (logs_updateIdea ?_ ?_) rfl rfl List.erase_subset
    · exact fun _ => rfl
    · exact fun _ => rfl
  | report jobId status tokenId summary =>
    obtain ⟨job, found, terminal⟩ := enabled
    obtain ⟨inside, named⟩ := World.job?_mem (Option.mem_def.mp found)
    refine ledger.congr rfl rfl ?_ ?_ fun call member => .inl member
    · show world.origins ⊆ List.map _ (updateWhere _ _ world.jobs)
      rw [origins_updateWhere]
      · exact fun _ member => member
      · exact fun _ => rfl
    · rintro ideaId id ⟨row, member, rowNamed, idea, kind, active⟩
      rcases mem_updateWhere.mp member with ⟨old, present, here, rfl⟩ | ⟨present, -⟩
      · have same : old.id = job.id := (of_decide_eq_true here).trans named.symm
        have equal : old = job := List.inj_on_of_nodup_map (job_ids sound) present inside same
        exact ⟨old, present, rowNamed, idea, kind, equal ▸ terminal active⟩
      · exact ⟨row, present, rowNamed, idea, kind, active⟩
  | updateIdea ideaId status =>
    refine ledger.ends (logs_updateIdea ?_ ?_) rfl rfl fun _ member => member
    · exact fun _ => rfl
    · exact fun _ => rfl
  | writeDocument write =>
    refine ledger.congr (logs_updateIdea ?_ ?_) rfl (fun _ member => member)
      (fun _ _ present => present) ?_
    · intro idea
      cases write.loop <;> rfl
    · intro idea
      cases write.loop <;> rfl
    · intro call member
      rcases mem_inserted.mp member with old | rfl
      · exact .inl old
      · exact .inr trivial
  | readMaker write =>
    unfold perform
    dsimp only
    split
    · exact ledger.proceeds trivial
    · exact ledger.ends rfl rfl rfl List.erase_subset
  | lockForDispatch dispatch =>
    unfold perform
    dsimp only
    split
    · rename_i idle
      refine ledger.proceeds fun plan id => ?_
      rintro ⟨job, member, named, idea, kind, active⟩
      have maker := (sound.knows _ enabled.1).2
      have missed := List.find?_eq_none.mp idle job member
      simp only [idea, kind, active, plan, Loop.kinds, Loop.makers, Loop.reviewer,
        decide_eq_true_eq, true_and, not_not, List.mem_singleton,
        List.mem_append, or_true, Option.some.injEq] at missed
      -- The job that the search leaves out is the maker, no review.
      have known := (sound.knows _ enabled.1).1
      have same : job.origin = dispatch.maker.origin :=
        sound.forest.eq_of_id (List.mem_map_of_mem member) known missed
      have makerKind : dispatch.maker.kind = .ideaReviewPlan :=
        (congrArg Origin.kind same).symm.trans kind
      rw [makerKind, plan] at maker
      simp [Loop.makers] at maker
    · exact ledger.ends rfl rfl rfl List.erase_subset
  | createReview dispatch jobId => exact ledger.reviewCreated sound enabled.1 enabled.2
  | submitReview submission autoPlanReview now =>
    refine ledger.congr rfl rfl (fun _ member => member) (fun _ _ present => present) ?_
    intro call member
    rcases List.mem_append.mp member with old | new
    · exact .inl old
    · obtain ⟨review, read, rfl⟩ := Option.map_eq_some_iff.mp (Option.mem_toList.mp new)
      obtain ⟨-, -, idea, known, log, -⟩ := World.review?_eq_some read
      refine .inr fun _ _ _ => ?_
      rw [log]
      exact World.logOf_of_idea? ledger.ids known
  | lockForVerdict review => exact ledger.judged sound enabled.1
  | searchLoop review =>
    have current := ledger.current _ enabled
    exact ledger.proceeds current
  | land review active jobId => exact ledger.landed sound enabled.1
  | stamp review outcome =>
    refine ledger.congr rfl rfl ?_ ?_ ?_
    · show world.origins ⊆ List.map _ (updateWhere _ _ world.jobs)
      rw [origins_updateWhere]
      · exact fun _ member => member
      · exact fun _ => rfl
    · rintro ideaId id ⟨row, member, named, idea, kind, active⟩
      rcases mem_updateWhere.mp member with ⟨old, present, -, rfl⟩ | ⟨present, -⟩
      · exact ⟨old, present, named, idea, kind, active⟩
      · exact ⟨row, present, named, idea, kind, active⟩
    · exact fun call member => .inl (List.mem_of_mem_erase member)
  | drop call => exact ledger.ends rfl rfl rfl List.erase_subset

end Reviews
end Scrum4Me
