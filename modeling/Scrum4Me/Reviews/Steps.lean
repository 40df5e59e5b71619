import Scrum4Me.Reviews.Forest

/-!
# Steps of the loops grow the forest

A review is inserted by a call that knows its maker, past the unique index; a
follow-up by the only transaction that has locked the idea, together with the
verdict that the review did not have before.
-/

namespace Scrum4Me
namespace Reviews

open Foundation Jobs Origin

/-- The jobs, by the columns that no step writes. -/
def World.origins (world : World) : List Origin :=
  world.jobs.map LoopJob.origin

/-- The reviews that have a verdict. -/
def World.reviewed (world : World) : List String :=
  world.reviewLogs.map (·.reviewJobId)

/-- The ideas that are locked. -/
def World.locked (world : World) : List IdeaId :=
  world.calls.filterMap Call.locks

/-- What a call in flight knows of the jobs. -/
def Call.Knows (origins : List Origin) (reviewed : List String) : Call → Prop
  | .starting start => ideaKindRule start.kind ≠ none
  | .written _ => True
  | .dispatching dispatch =>
      dispatch.maker.origin ∈ origins ∧ dispatch.maker.kind ∈ dispatch.loop.makers
  | .granted dispatch =>
      dispatch.maker.origin ∈ origins ∧ dispatch.maker.kind ∈ dispatch.loop.makers
  | .reviewing review =>
      review.job.origin ∈ origins ∧ reviewLoop? review.job.kind = some review.loop
  | .judging review =>
      review.job.origin ∈ origins ∧
        reviewLoop? review.job.kind = some review.loop ∧
          review.job.id ∉ reviewed
  | .searched review _ =>
      review.job.origin ∈ origins ∧
        reviewLoop? review.job.kind = some review.loop ∧
          review.job.id ∉ reviewed
  | .landed review _ =>
      review.job.origin ∈ origins ∧
        reviewLoop? review.job.kind = some review.loop ∧ review.job.id ∈ reviewed

/-- What every reachable state satisfies. -/
structure Sound (world : World) : Prop where
  forest : Forest world.origins world.reviewed
  locks : world.locked.Nodup
  knows : ∀ call ∈ world.calls, call.Knows world.origins world.reviewed

variable {world : World} {call next : Call} {loop : Loop} {followUp : FollowUp}

theorem reviewer_of_loop {kind : JobKind} :
    reviewLoop? kind = some loop ↔ kind = loop.reviewer := by
  cases kind <;> cases loop <;> decide

theorem World.locked_iff {ideaId : IdeaId} : world.Locked ideaId ↔ ideaId ∈ world.locked := by
  simp [World.Locked, World.locked]

theorem job_ids (sound : Sound world) : (world.jobs.map (·.id)).Nodup := by
  have ids := sound.forest.ids
  rwa [World.origins, List.map_map] at ids

/-! ## Calls come and go -/

/-- A state with the same tables, up to columns that are written. -/
theorem Sound.congr
    {world' : World} (sound : Sound world) (origins : world'.origins = world.origins)
    (reviewed : world'.reviewed = world.reviewed) (calls : world'.calls = world.calls) :
    Sound world' where
  forest := by
    rw [origins, reviewed]
    exact sound.forest
  locks := by
    rw [World.locked, calls]
    exact sound.locks
  knows := by
    rw [origins, reviewed, calls]
    exact sound.knows

/-- No call besides it holds the lock of a call. -/
theorem Sound.alone (sound : Sound world) (member : call ∈ world.calls) {ideaId : IdeaId}
    (locks : call.locks = some ideaId) :
    ideaId ∉ (world.calls.erase call).filterMap Call.locks := by
  have order := (List.perm_cons_erase member).filterMap Call.locks
  rw [List.filterMap_cons, locks] at order
  exact (List.nodup_cons.mp (order.nodup_iff.mp sound.locks)).1

theorem Sound.ended (sound : Sound world) (call : Call) (answer : Option Answer) :
    Sound (world.ended call answer) where
  forest := sound.forest
  locks := sound.locks.sublist (List.erase_sublist.filterMap _)
  knows := fun other member => sound.knows other (List.mem_of_mem_erase member)

theorem Sound.begins (sound : Sound world) (knows : call.Knows world.origins world.reviewed)
    (unlocked : ∀ ideaId ∈ call.locks, ideaId ∉ world.locked) :
    Sound { world with calls := world.calls ++ [call] } where
  forest := sound.forest
  locks := by
    have split : (world.calls ++ [call]).filterMap Call.locks =
        world.locked ++ call.locks.toList := by
      rw [List.filterMap_append, World.locked]
      cases locks : call.locks <;> simp [locks]
    show ((world.calls ++ [call]).filterMap Call.locks).Nodup
    rw [split]
    refine List.nodup_append.mpr ⟨sound.locks, ?_, ?_⟩
    · cases call.locks <;> simp
    · intro held member ideaId found same
      subst same
      exact unlocked held (Option.mem_toList.mp found) member
  knows := by
    intro other member
    rcases mem_inserted.mp member with old | rfl
    · exact sound.knows other old
    · exact knows

/-- A call goes on; it keeps its lock, or takes one that is free. -/
theorem Sound.proceeds (sound : Sound world) (member : call ∈ world.calls)
    (knows : next.Knows world.origins world.reviewed) (lock : ∀ ideaId ∈ next.locks,
      call.locks = some ideaId ∨ ¬ world.Locked ideaId) :
    Sound (world.proceeds call next) := by
  refine (sound.ended call none).begins knows ?_ |>.congr rfl rfl rfl
  intro ideaId locks held
  rcases lock ideaId locks with own | free
  · exact sound.alone member own held
  · exact free (World.locked_iff.mpr ((List.erase_sublist.filterMap Call.locks).subset held))

/-! ## Jobs come -/

theorem Call.Knows.insert {origins : List Origin} {reviewed : List String} {origin : Origin}
    (knows : call.Knows origins reviewed) :
    call.Knows (origins ++ [origin]) reviewed := by
  cases call with
  | starting => exact knows
  | written => trivial
  | _ => exact ⟨List.mem_append_left _ knows.1, knows.2⟩

theorem Sound.insert (sound : Sound world) {job : LoopJob}
    (forest : Forest (world.origins ++ [job.origin]) world.reviewed) :
    Sound (world.insertJob job) := by
  have origins : (world.insertJob job).origins = world.origins ++ [job.origin] := by
    simp [World.insertJob, World.origins]
  refine ⟨?_, sound.locks, ?_⟩
  · rw [origins]
    exact forest
  · rw [origins]
    exact fun call member => (sound.knows call member).insert

/-- A verdict is recorded, of a review that no transaction judges. -/
theorem Sound.record (sound : Sound world) {row : ReviewLogRow}
    (unreviewed : row.reviewJobId ∉ world.reviewed) (apart : ∀ call ∈ world.calls, ∀ review active,
      call = .judging review ∨ call = .searched review active → review.job.id ≠ row.reviewJobId) :
    Sound { world with reviewLogs := world.reviewLogs ++ [row] } := by
  have reviewed : World.reviewed { world with
      reviewLogs := world.reviewLogs ++ [row] } = world.reviewed ++ [row.reviewJobId] := by
    simp [World.reviewed]
  refine ⟨?_, sound.locks, ?_⟩
  · rw [reviewed]
    exact sound.forest.judge unreviewed
  · rw [reviewed]
    intro call member
    have knows := sound.knows call member
    cases call with
    | judging review =>
      refine ⟨knows.1, knows.2.1, ?_⟩
      rw [List.mem_append, List.mem_singleton]
      rintro (old | new)
      · exact knows.2.2 old
      · exact apart _ member review none (.inl rfl) new
    | searched review active =>
      refine ⟨knows.1, knows.2.1, ?_⟩
      rw [List.mem_append, List.mem_singleton]
      rintro (old | new)
      · exact knows.2.2 old
      · exact apart _ member review active (.inr rfl) new
    | landed => exact ⟨knows.1, knows.2.1, List.mem_append_left _ knows.2.2⟩
    | _ => exact knows

/-! ## What the calls read -/

variable {jobId : String}

theorem World.job?_mem {job : LoopJob} (found : world.job? jobId = some job) :
    job ∈ world.jobs ∧ job.id = jobId :=
  ⟨List.mem_of_find?_eq_some found, by simpa using List.find?_some found⟩

theorem newestMaker_mem {jobs : List LoopJob} {ideaId : IdeaId} {maker : LoopJob}
    (found : newestMaker loop jobs ideaId = some maker) :
    maker ∈ jobs ∧ maker.ideaId = ideaId ∧ maker.kind ∈ loop.makers ∧ maker.status.Held := by
  have member := List.mem_of_getLast? found
  rw [List.mem_filter] at member
  exact ⟨member.1, of_decide_eq_true member.2⟩

variable {dispatch : Dispatch} {active : Option LoopJob}

/-- The dispatch is about a maker of the idea, newest among those held. -/
theorem World.dispatch?_maker {write : Write} (read : world.dispatch? write = some dispatch) :
    newestMaker write.loop world.jobs write.ideaId = some dispatch.maker ∧
      dispatch.loop = write.loop ∧ dispatch.writer = write.writer := by
  unfold World.dispatch? at read
  cases found : newestMaker write.loop world.jobs write.ideaId with
  | none =>
    rw [found] at read
    cases read
  | some maker =>
    rw [found] at read
    cases loop : write.loop with
    | plan =>
      simp only [Option.bind_eq_bind, Option.bind_some, loop] at read
      split at read
      · cases read
        exact ⟨rfl, rfl, rfl⟩
      · cases read
    | spec =>
      simp only [Option.bind_eq_bind, Option.bind_some, loop] at read
      cases idea : world.idea? write.ideaId with
      | none =>
        rw [idea] at read
        cases read
      | some row =>
        cases doc : row.specDocId with
        | none => simp [idea, doc] at read
        | some specDocId =>
          simp only [idea, doc, Option.bind_some, Option.some.injEq]
            at read
          subst read
          exact ⟨rfl, rfl, rfl⟩

variable {review : Review}

/-- What a call of `submit_review` has read. -/
theorem World.review?_eq_some {submission : Submission} {autoPlanReview : Bool} {now : Moment}
    (read : world.review? submission autoPlanReview now = some review) :
    world.job? submission.jobId = some review.job ∧ reviewLoop? review.job.kind = some review.loop ∧
        ∃ idea, world.idea? review.job.ideaId = some idea ∧
          review.planReviewLog = idea.planReviewLog ∧ review.submission = submission := by
  unfold World.review? at read
  simp only [Option.bind_eq_bind, Option.bind_eq_some_iff] at read
  obtain ⟨job, found, loop, reviews, idea, known, made⟩ := read
  cases made
  exact ⟨found, reviews, idea, known, rfl, rfl⟩

/-! ## What the transactions insert -/

theorem Dispatch.follows (maker : dispatch.maker.kind ∈ dispatch.loop.makers) :
    Follows dispatch.maker.origin (dispatch.review jobId).origin where
  createdBy := rfl
  ideaId := rfl
  grows := .review dispatch.loop maker rfl rfl

/-- A follow-up is the next maker of the loop within the bound, or the first
maker of a plan. -/
theorem Review.landing_followUp (starts : (review.landing active).followUp = some followUp) :
    (followUp.kind = revisor review.loop ∧ followUp.loop = review.loop ∧
        followUp.round = review.round + 1 ∧ review.round < MAX_LOOP_ROUNDS ∧ active = none) ∨
      review.loop = .spec ∧ followUp.kind = .ideaMakePlan ∧
        followUp.loop = .plan ∧ followUp.round = 1 := by
  unfold Review.landing at starts
  cases loop : review.loop with
  | plan =>
    simp only [loop, applyIdeaReviewVerdict] at starts
    split at starts
    · split at starts
      · split at starts
        · cases starts
        · split at starts
          · cases starts
          · rename_i below
            cases starts
            exact .inl ⟨rfl, rfl, rfl, Nat.lt_of_not_le below, rfl⟩
      · cases starts
    · cases starts
    · cases starts
  | spec =>
    simp only [loop, applySpecReviewVerdict] at starts
    split at starts
    · cases starts
      exact .inr ⟨rfl, rfl, rfl, rfl⟩
    · split at starts
      · cases starts
      · split at starts
        · cases starts
        · rename_i below
          cases starts
          exact .inl ⟨rfl, rfl, rfl, Nat.lt_of_not_le below, rfl⟩
    · cases starts

theorem Review.follows (loop : reviewLoop? review.job.kind = some review.loop)
    (starts : (review.landing active).followUp = some followUp) :
    Follows review.job.origin (review.followUpJob jobId followUp).origin where
  createdBy := rfl
  ideaId := rfl
  grows := by
    have kind := reviewer_of_loop.mp loop
    rcases Review.landing_followUp starts with
      ⟨followKind, followLoop, round, below, -⟩ | ⟨spec, followKind, plan, round⟩
    · refine .revision review.loop kind followKind ?_ below
      show some (followUp.loop.key _ followUp.round) = _
      rw [followLoop, round]
      rfl
    · rw [spec] at kind
      refine .plan kind followKind ?_
      show some (followUp.loop.key _ followUp.round) = _
      rw [plan, round]
      rfl

/-- A maker without a row in its review's place has no child. -/
theorem Sound.childless_of_free (sound : Sound world)
    (member : dispatch.maker.origin ∈ world.origins)
    (maker : dispatch.maker.kind ∈ dispatch.loop.makers)
    (free : ¬ world.Taken (dispatch.review jobId)) :
    Forest.Childless world.origins dispatch.maker.origin := by
  intro child inside createdBy
  have follows := sound.forest.follows member inside createdBy
  obtain ⟨job, found, rfl⟩ := List.mem_map.mp inside
  have key : job.orchestrationKey = (dispatch.review jobId).orchestrationKey := by
    cases follows.grows with
    | review loop maker' kind key =>
      have same : loop = dispatch.loop := by
        change dispatch.maker.kind ∈ loop.makers at maker'
        cases loop <;> cases other : dispatch.loop <;>
          simp_all [Loop.makers]
      rw [same] at key
      exact key
    | revision loop review =>
      change dispatch.maker.kind = loop.reviewer at review
      rw [review] at maker
      cases loop <;> cases other : dispatch.loop <;>
        simp [Loop.makers, Loop.reviewer, other] at maker
    | plan review =>
      change dispatch.maker.kind = .specReview at review
      rw [review] at maker
      cases other : dispatch.loop <;> simp [Loop.makers, other] at maker
  refine free ⟨job, found, createdBy, ?_, key, ?_⟩
  · exact fun missing => by cases createdBy.symm.trans missing
  · rw [key]
    exact Option.some_ne_none _

/-- A review without a verdict has no child. -/
theorem Sound.childless_of_unreviewed (sound : Sound world) {job : LoopJob}
    (member : job.origin ∈ world.origins) (review : reviewLoop? job.kind = some loop)
    (unreviewed : job.id ∉ world.reviewed) :
    Forest.Childless world.origins job.origin := by
  intro child inside createdBy
  refine unreviewed (sound.forest.verdict job.origin member ?_ child inside createdBy)
  show reviewLoop? job.kind ≠ none
  rw [review]
  exact Option.some_ne_none _

/-! ## The machine keeps the invariant -/

theorem origins_updateWhere {matching : LoopJob → Bool} {change : LoopJob → LoopJob}
    (kept : ∀ job, (change job).origin = job.origin) :
    (updateWhere matching change world.jobs).map LoopJob.origin = world.origins :=
  map_updateWhere_of_unchanged kept world.jobs

theorem fresh_origin (fresh : jobId ∉ world.jobs.map (·.id)) :
    jobId ∉ world.origins.map (·.id) := by
  rwa [World.origins, List.map_map]

theorem Sound.reviewCreated (sound : Sound world)
    (member : .granted dispatch ∈ world.calls) (fresh : jobId ∉ world.jobs.map (·.id)) :
    Sound (world.reviewCreated dispatch jobId) := by
  unfold World.reviewCreated
  split
  · exact sound.ended _ _
  · rename_i free
    have knows := sound.knows _ member
    have grown := sound.forest.grow knows.1 (Dispatch.follows knows.2) (fresh_origin fresh)
      (sound.childless_of_free knows.1 knows.2 free) (by
        intro reviews
        have kind := knows.2
        change dispatch.maker.kind ∈ dispatch.loop.makers at kind
        change reviewLoop? dispatch.maker.kind ≠ none at reviews
        cases loop : dispatch.loop <;>
          simp [loop, Loop.makers] at kind
        · rw [kind] at reviews
          exact absurd rfl reviews
        · rcases kind with kind | kind <;> (rw [kind] at reviews; exact absurd rfl reviews))
    have inserted := @Sound.insert _ sound (dispatch.review jobId) grown
    exact (inserted.ended (.granted dispatch)
      (some (.wrote dispatch.writer true))).congr rfl rfl rfl

theorem Sound.judged (sound : Sound world) (member : .reviewing review ∈ world.calls)
    (free : ¬ world.Locked review.job.ideaId) :
    Sound (world.judged review) := by
  have knows := sound.knows _ member
  unfold World.judged
  split
  · rename_i done
    exact sound.proceeds member ⟨knows.1, knows.2, done⟩ nofun
  · rename_i unreviewed
    dsimp only
    split
    · refine sound.proceeds member ⟨knows.1, knows.2, unreviewed⟩ ?_
      rintro ideaId ⟨⟩
      exact .inr free
    · exact (sound.ended (.reviewing review)
        (some (.verdict review.job.id .stale))).congr rfl rfl rfl

theorem Sound.landed (sound : Sound world)
    (member : .searched review active ∈ world.calls) (fresh : jobId ∉ world.jobs.map (·.id)) :
    Sound (world.landed review active jobId) := by
  have knows := sound.knows _ member
  unfold World.landed
  dsimp only
  split
  · exact sound.ended _ _
  · -- The call lets go; then verdict and follow-up are written.
    have released := sound.ended (.searched review active) none
    have recorded := @Sound.record _ released review.logRow knows.2.2 (by
      intro call inside other found judges same
      have sameIdea : other.job.ideaId = review.job.ideaId := by
        have old := sound.knows call (List.mem_of_mem_erase inside)
        have known : other.job.origin ∈ world.origins := by
          rcases judges with rfl | rfl <;> exact old.1
        exact congrArg Origin.ideaId (sound.forest.eq_of_id known knows.1 same)
      refine @Sound.alone _ _ sound member review.job.ideaId rfl
        (List.mem_filterMap.mpr ⟨call, inside, ?_⟩)
      rcases judges with rfl | rfl <;> exact congrArg some sameIdea)
    have settled : review.job.id ∈ world.reviewed ++ [review.job.id] :=
      List.mem_append_right _ (List.mem_singleton_self _)
    have written : Sound { (world.ended (.searched review active) none) with
        jobs := world.jobs ++
          ((review.landing active).followUp.map (review.followUpJob jobId)).toList
        reviewLogs := world.reviewLogs ++ [review.logRow] } := by
      cases starts : (review.landing active).followUp with
      | none => exact recorded.congr (by simp [World.origins, World.ended]) rfl rfl
      | some followUp =>
        refine (@Sound.insert _ recorded (review.followUpJob jobId followUp) ?_).congr rfl rfl rfl
        refine recorded.forest.grow knows.1 (Review.follows knows.2.1 starts) (fresh_origin fresh)
          (sound.childless_of_unreviewed knows.1 knows.2.1 knows.2.2) ?_
        intro _
        show review.job.id ∈ List.map _ (world.reviewLogs ++ [review.logRow])
        rw [List.map_append]
        exact settled
    refine (@Sound.begins _ (.landed review (review.landing active).outcome)
      written ⟨?_, knows.2.1, ?_⟩ nofun).congr rfl rfl rfl
    · show _ ∈ List.map _ (_ ++ _)
      rw [List.map_append]
      exact List.mem_append_left _ knows.1
    · show _ ∈ List.map _ (_ ++ _)
      rw [List.map_append]
      exact settled

/-- Every step keeps the forest and what the calls know of it. -/
theorem sound_execute (world : World) (step : Step) (sound : Sound world) :
    Sound (execute world step) := by
  unfold execute
  split
  case isFalse => exact sound
  case isTrue enabled =>
  cases step with
  | dispatchIdeaJob start =>
    obtain ⟨⟨rule, found, -⟩, -⟩ := enabled
    refine sound.begins ?_ nofun
    show ideaKindRule start.kind ≠ none
    rw [Option.mem_def.mp found]
    exact nofun
  | createIdeaJob start jobId =>
    obtain ⟨member, fresh, -⟩ := enabled
    have root : (start.job jobId).origin.Root := ⟨rfl, rfl, sound.knows _ member⟩
    have inserted := @Sound.insert _ sound (start.job jobId)
      (sound.forest.plant root (fresh_origin fresh))
    exact (inserted.ended (.starting start) none).congr rfl rfl rfl
  | report jobId status tokenId summary =>
    exact sound.congr (origins_updateWhere fun _ => rfl) rfl rfl
  | updateIdea => exact sound.congr rfl rfl rfl
  | writeDocument write =>
    have begun := @Sound.begins _ (.written write) sound trivial nofun
    exact begun.congr rfl rfl rfl
  | readMaker write =>
    have member : .written write ∈ world.calls := enabled
    unfold perform
    dsimp only
    split
    · rename_i dispatch read
      obtain ⟨newest, loop, -⟩ := World.dispatch?_maker read
      obtain ⟨found, -, maker, -⟩ := newestMaker_mem newest
      rw [← loop] at maker
      exact sound.proceeds member ⟨List.mem_map_of_mem found, maker⟩ nofun
    · exact sound.ended _ _
  | lockForDispatch dispatch =>
    obtain ⟨member, free⟩ := enabled
    unfold perform
    dsimp only
    split
    · have knows := sound.knows _ member
      refine sound.proceeds member knows ?_
      rintro ideaId ⟨⟩
      exact .inr free
    · exact sound.ended _ _
  | createReview dispatch jobId => exact sound.reviewCreated enabled.1 enabled.2
  | submitReview submission autoPlanReview now =>
    unfold perform
    dsimp only
    cases read : world.review? submission autoPlanReview now with
    | none => exact sound.congr rfl rfl (List.append_nil _)
    | some review =>
      obtain ⟨found, loop, -⟩ := World.review?_eq_some read
      exact @Sound.begins _ (.reviewing review) sound
        ⟨List.mem_map_of_mem (World.job?_mem found).1, loop⟩ nofun
  | lockForVerdict review => exact sound.judged enabled.1 enabled.2
  | searchLoop review =>
    have member : .judging review ∈ world.calls := enabled
    have knows := sound.knows _ member
    refine sound.proceeds member knows ?_
    rintro ideaId ⟨⟩
    exact .inl rfl
  | land review active jobId => exact sound.landed enabled.1 enabled.2
  | stamp review outcome =>
    have ended := sound.ended (.landed review outcome) (some (.verdict review.job.id outcome))
    exact ended.congr (origins_updateWhere fun _ => rfl) rfl rfl
  | drop call => exact sound.ended _ _

/-- No job and no call yet. -/
def World.initial (ideas : List IdeaRow) : World where
  jobs := []
  ideas := ideas
  reviewLogs := []
  ideaLogs := []
  questions := []
  calls := []
  answers := []

theorem sound_initial (ideas : List IdeaRow) : Sound (World.initial ideas) where
  forest := Forest.empty
  locks := List.nodup_nil
  knows := List.forall_mem_nil _

end Reviews
end Scrum4Me
