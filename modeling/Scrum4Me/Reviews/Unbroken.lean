import Scrum4Me.Reviews.Going

/-!
# The loop goes on

Workers write, or submit a verdict, before they report a job done. A job whose
step of the loop is not taken yet is therefore active, and every status in which
an idea waits for the loop has such a job behind it. What can break this is the
dispatch of a review: it gives up while another job of the loop is active, also
when that is only the previous review, whose worker has not reported it done yet.
-/

namespace Scrum4Me
namespace Reviews

open Foundation Jobs Origin Relation

namespace World

variable (world : World)

/-- The worker of the job has had the answer to its write, or to its verdict. -/
def Worked (job : LoopJob) : Prop :=
  (makerLoop? job.kind ≠ none →
    ∃ answer ∈ world.answers, ∃ dispatched ∈ [true, false],
      answer = .wrote (some job.id) dispatched) ∧
    (reviewLoop? job.kind ≠ none →
      ∃ answer ∈ world.answers, ∃ outcome ∈ [Outcome.alreadyProcessed, .revision,
        .manualStop, .approved, .rejected, .stale, .planStarted, .maxRounds],
        answer = .verdict job.id outcome)

instance (job : LoopJob) : Decidable (world.Worked job) :=
  inferInstanceAs (Decidable (_ ∧ _))

/-- Every write that was answered has its review, of the round of its maker; and
an idea none of whose loop jobs is active does not wait for one. -/
structure Unbroken : Prop where
  reviewed : ∀ jobId dispatched,
    .wrote (some jobId) dispatched ∈ world.answers →
      ∃ maker ∈ world.jobs, maker.id = jobId ∧
        ∃ loop, maker.kind ∈ Loop.makers loop ∧
          ∃ review ∈ world.jobs, review.createdByJobId = some maker.id ∧
            review.kind = loop.reviewer ∧ review.round = maker.round
  waits : ∀ idea ∈ world.ideas,
    (∀ job ∈ world.jobs, job.ideaId = idea.id →
      makerLoop? job.kind ≠ none ∨ reviewLoop? job.kind ≠ none →
        ¬ job.status.Active) →
      ¬ idea.status.Waits

end World

/-- Users start a job on an idea that has no active one; a worker claims a job,
and keeps it until its write, or its verdict, is answered; it writes, and submits,
for a job that it holds, with automatic review switched on. Others leave the
statuses of the loops alone. -/
def Step.Diligent (world : World) : Step → Prop
  | createIdeaJob start _ =>
      ∀ job ∈ world.jobs, job.ideaId = start.ideaId → ¬ job.status.Active
  | report jobId status tokenId _ =>
      ∀ job ∈ world.job? jobId,
        job.status = .queued ∧ (status = .queued ∨ status.Held) ∨
          job.status.Held ∧ status.Held ∧ tokenId = job.claimedByTokenId ∨
            job.status.Held ∧ status = .done ∧ world.Worked job ∨
              ¬ job.status.Active
  | updateIdea _ status => ¬ status.Waits
  | writeDocument write =>
      write.autoPlanReview = true ∧
        ∃ job ∈ world.jobs, write.writer = some job.id ∧
          job.kind ∈ write.loop.makers ∧ job.ideaId = write.ideaId ∧
            job.status.Held
  | submitReview submission autoPlanReview _ =>
      autoPlanReview = true ∧
        ∃ job ∈ world.jobs, job.id = submission.jobId ∧ job.status.Held ∧
          job.claimedByTokenId = some submission.tokenId
  | _ => True

instance (world : World) (step : Step) : Decidable (step.Diligent world) := by
  apply @Step.casesOn (fun step => Decidable (step.Diligent world)) step <;>
    intros <;> dsimp only [Step.Diligent] <;> infer_instance

/-- The dispatch of a review that is not there yet finds no other active job of the
loop. -/
def Step.Unblocked (world : World) : Step → Prop
  | lockForDispatch dispatch =>
      ¬ world.HasReview dispatch.maker.id →
        findActive dispatch.loop world.jobs dispatch.maker.ideaId [some dispatch.maker.id] = none
  | _ => True

instance (world : World) (step : Step) : Decidable (step.Unblocked world) := by
  apply @Step.casesOn (fun step => Decidable (step.Unblocked world)) step <;>
    intros <;> dsimp only [Step.Unblocked] <;> infer_instance

variable {world : World}

theorem Going.unbroken (sound : Sound world) (going : Going world) : world.Unbroken where
  reviewed := by
    intro jobId dispatched member
    obtain ⟨⟨review, inside, created⟩, maker, known, named, makes⟩ := going.answers _ member
    cases loop : makerLoop? maker.kind with
    | none => exact absurd loop makes
    | some loop' =>
      have kind := makerLoop?_eq_some.mp loop
      subst named
      have follows := sound.forest.follows (List.mem_map_of_mem known)
        (List.mem_map_of_mem inside) created
      obtain ⟨reviews, round⟩ := follows.grows.round_of_maker kind
      exact ⟨maker, known, rfl, loop', kind, review, inside, created, reviews, round⟩
  waits := by
    intro idea member idle isWaiting
    obtain ⟨job, inside, here, opened⟩ := going.waits idea member isWaiting
    refine idle job inside here ?_ (going.openActive job inside opened)
    exact opened.imp And.left And.left

/-! ## What diligent workers do -/

theorem Step.Diligent.unoccupied
    {step : Step} (sound : Sound world) (lined : Lined world) (going : Going world)
    (enabled : step.Enabled world) (diligent : step.Diligent world) :
    step.Unoccupied world := by
  cases step with
  | createIdeaJob => exact diligent
  | report jobId status tokenId summary =>
    intro queued job found
    obtain ⟨row, rowFound, terminal⟩ := enabled
    obtain rfl : row = job := Option.some.inj ((Option.mem_def.mp rowFound).symm.trans found)
    subst queued
    rcases diligent row found with waits | held | done | ended
    · exact waits.1
    · exact absurd held.2.1 (by decide)
    · exact nomatch done.2.1
    · exact absurd (terminal (.inl rfl)) ended
  | createReview dispatch jobId =>
    obtain ⟨member, -⟩ := enabled
    have knows := sound.knows _ member
    obtain ⟨⟨-, row, inside, named, -, -, busy⟩, -⟩ := going.calls _ member
    intro free job jobMember here active
    have childless := sound.childless_of_free knows.1 knows.2 free
    have same : row.origin = dispatch.maker.origin :=
      sound.forest.eq_of_id (List.mem_map_of_mem inside) knows.1 named
    have held : row.status.Held := by
      rcases busy with has | held
      · obtain ⟨child, childMember, created⟩ := World.hasReview_iff.mp has
        exact absurd created (childless child childMember)
      · exact held
    have rowIdea : row.ideaId = dispatch.maker.ideaId := congrArg Origin.ideaId same
    rw [← same] at childless ⊢
    rcases lined.related job jobMember row inside (here.trans rowIdea.symm) active
      held.active with forward | backward
    · exact forward
    · rw [backward.eq_of_childless childless]
      exact .refl
  | _ => trivial

variable {jobId : String}

theorem Going.report (sound : Sound world) (going : Going world) {status : JobStatus}
    {tokenId summary : Option String}
    (enabled : Step.Enabled world (.report jobId status tokenId summary))
    (diligent : Step.Diligent world (.report jobId status tokenId summary)) :
    Going (perform world (.report jobId status tokenId summary)) := by
  obtain ⟨row, found, terminal⟩ := enabled
  obtain ⟨inside, named⟩ := World.job?_mem (Option.mem_def.mp found)
  have only : ∀ job ∈ world.jobs, decide (job.id = jobId) = true → job = row :=
    fun job present here => sound.row_unique present inside
      ((of_decide_eq_true here).trans named.symm)
  have worked : world.Worked row → (makerLoop? row.kind ≠ none → world.HasReview row.id) ∧
        (reviewLoop? row.kind ≠ none → world.Reviewed row.id) := by
    refine fun works => ⟨fun maker => ?_, fun review => ?_⟩
    · obtain ⟨answer, member, dispatched, -, rfl⟩ := works.1 maker
      exact (going.answers _ member).1
    · obtain ⟨answer, member, outcome, -, rfl⟩ := works.2 review
      exact going.answers _ member
  refine going.rewrite (fun _ => rfl) ?_ ?_ ?_
  · intro job present here active
    rw [only job present here]
    exact terminal active
  · intro job present here opened
    rw [only job present here] at opened
    have active := going.openActive row inside opened
    rcases diligent row found with waits | held | done | ended
    · rcases waits.2 with rfl | held
      · exact .inl rfl
      · exact held.active
    · exact held.2.1.active
    · obtain ⟨makes, reviews⟩ := worked done.2.2
      rcases opened with maker | review
      · exact absurd (makes maker.1) maker.2
      · exact absurd (reviews review.1) review.2
    · exact absurd active ended
  · intro job present here held
    rw [only job present here] at held ⊢
    rcases diligent row found with waits | still | done | ended
    · rw [waits.1] at held
      exact absurd held (by decide)
    · exact .inl ⟨still.2.1, still.2.2⟩
    · exact .inr (worked done.2.2)
    · exact absurd held.active ended

/-! ## Makers -/

theorem Going.createIdeaJob (sound : Sound world) (going : Going world) {start : Start}
    (enabled : Step.Enabled world (.createIdeaJob start jobId))
    (diligent : Step.Diligent world (.createIdeaJob start jobId)) :
    Going (perform world (.createIdeaJob start jobId)) := by
  obtain ⟨member, fresh, free⟩ := enabled
  have root : (start.job jobId).createdByJobId = none := rfl
  have ruled : ideaKindRule start.kind ≠ none := sound.knows _ member
  have rooted : ∀ {id : String}, (start.job jobId).createdByJobId ≠ some id :=
    fun same => absurd (same.symm.trans root) (Option.some_ne_none _)
  obtain ⟨inserted, opened⟩ := @Going.insert (start.job jobId) _ sound going fresh rooted (.inl rfl)
    (fun other inside loop _ _ here active => absurd active (diligent other inside here))
    (fun other _ same => absurd same rooted)
    (fun different => absurd root different)
    (by
      rintro call inside dispatch rfl same
      exact free ⟨_, inside, congrArg some same⟩)
  cases rule : ideaKindRule start.kind with
  | none => exact absurd rule ruled
  | some target =>
    have written := @Going.updateIdea _ inserted start.ideaId (fun idea => { idea with
        status := ((ideaKindRule start.kind).map (·.1)).getD idea.status })
      (fun _ => rfl) (fun _ docs => docs) (by
        intro idea _ _ waits
        rw [rule] at waits
        refine ⟨start.job jobId, ?_, rfl, opened (ideaKindRule_waits rule waits)⟩
        exact List.mem_append_right _ (List.mem_singleton_self _))
    exact (written.logs _ _).ended (.starting start) nofun

/-- The idea after its plan, or its specification, has been written. -/
def Write.noted (write : Write) (idea : IdeaRow) : IdeaRow :=
  match write.loop with
  | .plan => { idea with status := .planReady }
  | .spec => { idea with specDocId := some write.docId }

theorem Going.writeDocument (going : Going world) {write : Write}
    (enabled : Step.Enabled world (.writeDocument write))
    (diligent : Step.Diligent world (.writeDocument write)) :
    Going (perform world (.writeDocument write)) := by
  obtain ⟨known, -⟩ := enabled
  obtain ⟨auto, maker, inside, writer, kind, here, held⟩ := diligent
  cases found : world.idea? write.ideaId with
  | none => exact absurd found known
  | some idea =>
  have present := List.mem_of_find?_eq_some found
  have named : idea.id = write.ideaId := by
    have criteria := List.find?_some found
    exact of_decide_eq_true criteria
  have id : ∀ row : IdeaRow, (write.noted row).id = row.id := by
    intro row
    unfold Write.noted
    cases write.loop <;> rfl
  have written := @Going.updateIdea _ going write.ideaId write.noted id (by
      intro row docs
      unfold Write.noted
      cases write.loop with
      | plan => exact docs
      | spec => exact Option.some_ne_none _)
    (by
      intro row member same waits
      unfold Write.noted at waits
      cases loop : write.loop with
      | plan =>
        rw [loop] at waits
        rcases waits with waits | waits | waits | waits <;> cases waits
      | spec =>
        rw [loop] at waits
        rw [← same]
        exact going.waits row member waits)
  have begun := @Going.begins _ written (.written write) (by
    refine ⟨auto, ?_, ?_, maker.id, writer, maker, inside, rfl, kind, here, .inr held⟩
    · obtain ⟨row, rowFound, same⟩ := @exists_updateWhere _
        (fun idea : IdeaRow => decide (idea.id = write.ideaId)) _ world.ideas
        (fun idea idea' => idea'.id = idea.id) (fun _ => rfl) id idea present
      exact ⟨row, rowFound, same.trans named⟩
    · intro spec row member same
      rcases mem_updateWhere.mp member with ⟨old, -, -, rfl⟩ | ⟨-, other⟩
      · rw [Write.noted, spec]
        exact Option.some_ne_none _
      · exact absurd (decide_eq_true same) (by rw [other]; exact Bool.false_ne_true))
  exact begun.logs _ _

theorem Going.readMaker (lined : Lined world) (going : Going world) {write : Write}
    (member : .written write ∈ world.calls) :
    Going (perform world (.readMaker write)) := by
  obtain ⟨auto, ⟨idea, ideaMember, ideaNamed⟩, docs, jobId, writer, job, inside,
    named, kind, here, works⟩ := going.calls _ member
  have makes : makerLoop? job.kind ≠ none := by
    rw [makerLoop?_eq_some.mpr kind]
    exact nofun
  unfold perform
  dsimp only
  split
  · rename_i dispatch read
    obtain ⟨newest, loop, sameWriter⟩ := World.dispatch?_maker read
    obtain ⟨found, makerIdea, makerKind, makerHeld⟩ := newestMaker_mem newest
    refine going.proceeds _ ⟨⟨jobId, sameWriter.trans writer, ⟨job, inside, named, makes⟩, ?_⟩,
      dispatch.maker, found, rfl, loop ▸ makerKind, rfl, .inr makerHeld⟩
    rcases works with has | held
    · exact .inr has
    · rw [← named]
      rcases going.newest lined newest inside here kind held with same | has
      · exact .inl (congrArg LoopJob.id same)
      · exact .inr has
  · rename_i read
    refine going.ended _ ?_
    rintro _ ⟨⟩
    rw [writer]
    refine ⟨?_, job, inside, named, makes⟩
    rcases works with has | held
    · exact has
    · -- A worker holds the maker, so that the call finds one.
      have among : job ∈ world.jobs.filter fun job =>
          job.ideaId = write.ideaId ∧ job.kind ∈ write.loop.makers ∧ job.status.Held :=
        List.mem_filter.mpr ⟨inside, decide_eq_true ⟨here, kind, held⟩⟩
      cases newest : newestMaker write.loop world.jobs write.ideaId with
      | none =>
        rw [List.getLast?_eq_none_iff.mp newest] at among
        cases among
      | some maker =>
        unfold World.dispatch? at read
        cases row : world.idea? write.ideaId with
        | none =>
          have criteria := List.find?_eq_none.mp row idea ideaMember
          exact absurd (decide_eq_true ideaNamed) criteria
        | some row' =>
          have rowNamed : row'.id = write.ideaId := by
            have criteria := List.find?_some row
            exact of_decide_eq_true criteria
          cases loop : write.loop with
          | plan =>
            rw [loop] at newest
            simp [newest, loop, auto] at read
          | spec =>
            rw [loop] at newest
            have doc := docs loop row' (List.mem_of_find?_eq_some row) rowNamed
            cases specDocId : row'.specDocId with
            | none => exact absurd specDocId doc
            | some => simp [newest, loop, row, specDocId] at read

theorem Going.lockForDispatch (going : Going world) {dispatch : Dispatch}
    (member : .dispatching dispatch ∈ world.calls)
    (unblocked : Step.Unblocked world (.lockForDispatch dispatch)) :
    Going (perform world (.lockForDispatch dispatch)) := by
  have serves : dispatch.Serves world := going.calls _ member
  unfold perform
  dsimp only
  split
  · rename_i idle
    refine going.proceeds _ ⟨serves, .inr fun job inside here kinds active => ?_⟩
    by_contra other
    unfold findActive at idle
    refine List.find?_eq_none.mp idle job inside (decide_eq_true ?_)
    exact ⟨here, kinds, active, fun same => other (Option.some.inj (List.mem_singleton.mp same))⟩
  · rename_i busy
    have has : world.HasReview dispatch.maker.id := by
      by_contra without
      exact busy (unblocked without)
    obtain ⟨⟨jobId, writer, maker, own⟩, -⟩ := serves
    refine going.ended _ ?_
    rintro _ ⟨⟩
    rw [writer]
    refine ⟨?_, maker⟩
    rcases own with rfl | reviewed
    · exact has
    · exact reviewed

theorem Going.reviewCreated (sound : Sound world) (going : Going world) {dispatch : Dispatch}
    (member : .granted dispatch ∈ world.calls) (fresh : jobId ∉ world.jobs.map (·.id)) :
    Going (world.reviewCreated dispatch jobId) := by
  have knows := sound.knows _ member
  obtain ⟨⟨⟨writerId, writer, ⟨row, inside, named, makes⟩, own⟩, -⟩, alone⟩ := going.calls _ member
  unfold World.reviewCreated
  split
  · rename_i taken
    obtain ⟨review, found, created, -⟩ := taken
    refine going.ended _ ?_
    rintro _ ⟨⟩
    rw [writer]
    refine ⟨?_, row, inside, named, makes⟩
    rcases own with rfl | reviewed
    · exact ⟨review, found, created⟩
    · exact reviewed
  rename_i free
  have childless := sound.childless_of_free knows.1 knows.2 free
  have unreviewed : ¬ world.HasReview dispatch.maker.id := by
    intro has
    obtain ⟨child, childMember, created⟩ := World.hasReview_iff.mp has
    exact childless child childMember created
  have distinct : (dispatch.review jobId).createdByJobId ≠ some jobId := by
    intro same
    have named : dispatch.maker.id = jobId := Option.some.inj same
    exact fresh_origin fresh (named ▸ List.mem_map_of_mem knows.1)
  have released := @Going.ended _ going (.granted dispatch) none nofun
  obtain ⟨inserted, opened⟩ := @Going.insert (dispatch.review jobId) _
    (sound.ended (.granted dispatch) none) released fresh
    distinct (.inl rfl)
    (by
      intro other present loop kind kinds here active
      have same : loop = dispatch.loop := by
        change dispatch.loop.reviewer = loop.reviewer at kind
        cases loop <;> cases reviews : dispatch.loop <;> rw [reviews] at kind <;>
          first | rfl | cases kind
      rw [same] at kinds
      rcases alone with has | alone
      · exact absurd has unreviewed
      · exact congrArg some (alone other present here kinds active).symm)
    (by
      intro other present created
      have sameId : dispatch.maker.id = other.id := Option.some.inj created
      have same : other.origin = dispatch.maker.origin :=
        sound.forest.eq_of_id (List.mem_map_of_mem present) knows.1 sameId.symm
      exact congrArg Origin.ideaId same)
    (fun _ => .inr (by
      show reviewLoop? dispatch.loop.reviewer ≠ none
      cases dispatch.loop <;> exact nofun))
    (by
      rintro call present other rfl same
      exact sound.alone member rfl (List.mem_filterMap.mpr ⟨_, present, congrArg some same⟩))
  have reviews : reviewLoop? (dispatch.review jobId).kind ≠ none := by
    show reviewLoop? dispatch.loop.reviewer ≠ none
    cases dispatch.loop <;> exact nofun
  have written := @Going.updateIdea _ inserted dispatch.maker.ideaId
    (fun idea => { idea with status := dispatch.loop.reviewing })
    (fun _ => rfl) (fun _ docs => docs) (by
      intro idea _ _ _
      refine ⟨dispatch.review jobId, ?_, rfl, opened (.inr reviews)⟩
      exact List.mem_append_right _ (List.mem_singleton_self _))
  have answered := @Going.turns _ written (world.calls.erase (.granted dispatch))
    (world.answers ++ [.wrote dispatch.writer true])
    (fun _ found => .inl found) (by
      intro answer found
      rcases List.mem_append.mp found with old | new
      · exact .inl (List.mem_append_left _ old)
      · rw [List.mem_singleton.mp new, writer]
        refine .inr ⟨?_, row, List.mem_append_left _ inside, named, makes⟩
        rcases own with rfl | ⟨child, present, created⟩
        · exact ⟨_, List.mem_append_right _ (List.mem_singleton_self _), rfl⟩
        · exact ⟨child, List.mem_append_left _ present, created⟩)
  exact answered.logs _ _

/-! ## Verdicts -/

theorem Going.submitReview (sound : Sound world) (going : Going world) {submission : Submission}
    {autoPlanReview : Bool} {now : Moment}
    (diligent : Step.Diligent world (.submitReview submission autoPlanReview now)) :
    Going (perform world (.submitReview submission autoPlanReview now)) := by
  obtain ⟨auto, job, inside, named, held, token⟩ := diligent
  unfold perform
  dsimp only
  cases read : world.review? submission autoPlanReview now with
  | none =>
    exact going.turns (fun call member => .inl (by simpa using member)) fun _ member => .inl member
  | some review =>
    obtain ⟨found, loop, idea, -, -, same⟩ := World.review?_eq_some read
    have automatic : review.autoPlanReview = autoPlanReview := by
      unfold World.review? at read
      simp only [Option.bind_eq_bind, Option.bind_eq_some_iff] at read
      obtain ⟨_, -, _, -, _, -, made⟩ := read
      cases made
      rfl
    obtain ⟨reviewMember, reviewNamed⟩ := World.job?_mem found
    have equal : job = review.job :=
      sound.row_unique inside reviewMember (named.trans reviewNamed.symm)
    refine @Going.begins _ going (.reviewing review) ⟨automatic.trans auto,
      .inr ⟨job, inside, congrArg LoopJob.id equal, ?_, held, same ▸ token⟩⟩
    rw [equal, loop]
    exact nofun

theorem Going.judged (sound : Sound world) (going : Going world) {review : Review}
    (member : .reviewing review ∈ world.calls) :
    Going (world.judged review) := by
  obtain ⟨auto, works⟩ := going.calls _ member
  unfold World.judged
  split
  · exact going.proceeds _ trivial
  rename_i unreviewed
  dsimp only
  split
  · exact going.proceeds _ auto
  · rename_i inactive
    rcases works with done | ⟨job, inside, named, -, held, token⟩
    · exact absurd done unreviewed
    · -- The worker holds its review, so the check of the transaction passes.
      refine absurd ⟨job, ?_, token, held⟩ inactive
      cases found : world.job? review.job.id with
      | none =>
        have criteria := List.find?_eq_none.mp found job inside
        exact absurd (decide_eq_true named) criteria
      | some row =>
        obtain ⟨rowMember, rowNamed⟩ := World.job?_mem found
        exact congrArg some (sound.row_unique rowMember inside (rowNamed.trans named.symm))

theorem Going.landed (sound : Sound world) (going : Going world) {review : Review}
    {active : Option LoopJob} (member : .searched review active ∈ world.calls)
    (fresh : jobId ∉ world.jobs.map (·.id)) :
    Going (world.landed review active jobId) := by
  have knows := sound.knows _ member
  obtain ⟨auto, rfl⟩ := going.calls _ member
  unfold World.landed
  dsimp only
  split
  · exact going.ended _ nofun
  have sound' := sound.ended (.searched review none) none
  have released := @Going.ended _ going (.searched review none) none nofun
  obtain ⟨status, landed, starts⟩ := @Review.landing_waits review auto
  have named : jobId ≠ review.job.id := by
    intro same
    exact fresh_origin fresh (same ▸ List.mem_map_of_mem knows.1)
  have sameIdea : ∀ other ∈ world.jobs, other.id = review.job.id →
      other.ideaId = review.job.ideaId := fun other present sameId =>
    congrArg Origin.ideaId (sound.forest.eq_of_id (List.mem_map_of_mem present) knows.1 sameId)
  -- The follow-up is there, and open, before its idea waits for it.
  have grown : ∃ jobs : List LoopJob, jobs = world.jobs ++
      ((review.landing none).followUp.map (review.followUpJob jobId)).toList ∧
        Going { (world.ended (.searched review none) none) with jobs := jobs } ∧
          (status.Waits → ∃ job ∈ jobs, job.ideaId = review.job.ideaId ∧
            job.id = jobId ∧ World.Open { (world.ended (.searched review none)
              none) with jobs := jobs } job) := by
    cases followUp : (review.landing none).followUp with
    | none =>
      refine ⟨world.jobs, (List.append_nil _).symm, released, fun waits => ?_⟩
      exact absurd followUp (starts waits)
    | some next =>
      have makes := Review.followUp_maker followUp
      obtain ⟨inserted, opened⟩ := @Going.insert (review.followUpJob jobId next) _
        sound' released fresh
        (fun same => named (Option.some.inj same).symm) (.inl rfl)
        (by
          intro other _ loop kind
          have reviews : reviewLoop? next.kind = some loop := reviewer_of_loop.mpr kind
          rw [not_reviewer_of_maker makes] at reviews
          cases reviews)
        (fun other present created => sameIdea other present (Option.some.inj created).symm)
        (fun _ => .inl makes)
        (by
          rintro call present other rfl same
          exact sound.alone member rfl (List.mem_filterMap.mpr ⟨_, present, congrArg some same⟩))
      refine ⟨_, rfl, inserted, fun _ => ?_⟩
      exact ⟨review.followUpJob jobId next,
        List.mem_append_right _ (List.mem_singleton_self _), rfl, rfl,
        opened (.inl makes)⟩
  obtain ⟨jobs, split, inserted, waits⟩ := grown
  have written := @Going.updateIdea _ inserted review.job.ideaId
    (review.updateIdea (review.landing none))
    (by
      intro idea
      unfold Review.updateIdea
      cases review.loop <;> rfl)
    (by
      intro idea docs
      unfold Review.updateIdea
      cases review.loop <;> exact docs)
    (by
      intro idea _ _ isWaiting
      have now : (review.updateIdea (review.landing none) idea).status = status := by
        unfold Review.updateIdea
        rw [landed]
        cases review.loop <;> rfl
      rw [now] at isWaiting
      obtain ⟨job, inside, here, -, opened⟩ := waits isWaiting
      exact ⟨job, inside, here, opened⟩)
  have recorded := @Going.record _ written review.logRow (by
      obtain ⟨row, inside, same⟩ := List.mem_map.mp knows.1
      show review.job.id ∈ jobs.map (·.id)
      rw [split, List.map_append]
      exact List.mem_append_left _ (List.mem_map.mpr ⟨row, inside, congrArg Origin.id same⟩))
    (by
      intro idea present isWaiting
      rcases mem_updateWhere.mp present with ⟨old, -, here, rfl⟩ | ⟨inside, elsewhere⟩
      · have now : (review.updateIdea (review.landing none) old).status = status := by
          unfold Review.updateIdea
          rw [landed]
          cases review.loop <;> rfl
        have sameId : (review.updateIdea (review.landing none) old).id = review.job.ideaId := by
          have id : (review.updateIdea (review.landing none) old).id = old.id := by
            unfold Review.updateIdea
            cases review.loop <;> rfl
          exact id.trans (of_decide_eq_true here)
        rw [now] at isWaiting
        obtain ⟨job, found, jobIdea, jobNamed, opened⟩ := waits isWaiting
        exact ⟨job, found, jobIdea.trans sameId.symm, opened,
          fun same => named (jobNamed.symm.trans same)⟩
      · obtain ⟨job, found, jobIdea, opened⟩ := inserted.waits idea inside isWaiting
        refine ⟨job, found, jobIdea, opened, fun same => ?_⟩
        have other : idea.id ≠ review.job.ideaId := of_decide_eq_false elsewhere
        rw [split] at found
        rcases List.mem_append.mp found with old | new
        · exact other (jobIdea.symm.trans (sameIdea job old same))
        · obtain ⟨next, -, rfl⟩ := Option.map_eq_some_iff.mp (Option.mem_toList.mp new)
          exact named same)
  have begun := @Going.begins _ recorded (.landed review (review.landing none).outcome) trivial
  rw [split] at begun
  exact (begun.logs _ _).turns (fun _ found => .inl found) fun answer found =>
    .inl (by simpa [World.ended, World.updateIdea] using found)

/-! ## Runs of diligent workers -/

theorem Going.execute
    (step : Step) (sound : Sound world) (lined : Lined world) (going : Going world)
    (diligent : step.Diligent world) (unblocked : step.Unblocked world) :
    Going (execute world step) := by
  unfold Reviews.execute
  split
  case isFalse => exact going
  case isTrue enabled =>
  cases step with
  | dispatchIdeaJob start => exact @Going.begins _ going (.starting start) trivial
  | createIdeaJob => exact going.createIdeaJob sound enabled diligent
  | report => exact going.report sound enabled diligent
  | updateIdea ideaId status =>
    refine going.updateIdea ?_ ?_ fun _ _ _ waits => absurd waits diligent
    · exact fun _ => rfl
    · exact fun _ docs => docs
  | writeDocument => exact going.writeDocument enabled diligent
  | readMaker => exact going.readMaker lined enabled
  | lockForDispatch => exact going.lockForDispatch enabled.1 unblocked
  | createReview => exact going.reviewCreated sound enabled.1 enabled.2
  | submitReview => exact going.submitReview sound diligent
  | lockForVerdict => exact going.judged sound enabled.1
  | searchLoop review =>
    have auto : review.autoPlanReview = true := going.calls _ enabled
    exact going.proceeds _ ⟨auto, going.search sound lined enabled⟩
  | land => exact going.landed sound enabled.1 enabled.2
  | stamp review outcome =>
    have reviewed := (sound.knows _ enabled).2.2
    have ended := @Going.ended _ going (.landed review outcome)
      (some (.verdict review.job.id outcome)) (by
        rintro _ ⟨⟩
        exact reviewed)
    refine ended.rewrite ?_ ?_ ?_ ?_
    · exact fun _ => rfl
    · exact fun _ _ _ active => active
    · exact fun job member _ opened => ended.openActive job member opened
    · exact fun _ _ _ held => .inl ⟨held, rfl⟩
  | drop call => exact going.ended call nofun

theorem going_initial {ideas : List IdeaRow} (idle : ∀ idea ∈ ideas, ¬ idea.status.Waits) :
    Going (World.initial ideas) where
  order := .nil
  overtakes := .nil
  logged := List.forall_mem_nil _
  openActive := List.forall_mem_nil _
  waits := fun idea member waits => absurd waits (idle idea member)
  answers := List.forall_mem_nil _
  calls := List.forall_mem_nil _

namespace LoopRuns

def idea : IdeaRow where
  id := .sample
  productId := "product"
  status := .grilled

variable (loop : Loop)

def start : Start where
  kind :=
    match loop with
    | .plan => .ideaMakePlan
    | .spec => .ideaMakeSpec
  ideaId := idea.id
  userId := "user"
  productId := "product"

def write (jobId : String) : Write where
  loop := loop
  ideaId := idea.id
  docId := "doc"
  revisionId := "revision of " ++ jobId
  autoPlanReview := true
  content := "written"
  writer := some jobId

def dispatch (maker : LoopJob) : Dispatch where
  loop := loop
  maker := { maker with status := .claimed, claimedByTokenId := some "worker" }
  docId := some "doc"
  docRevisionId := "revision of " ++ maker.id
  writer := some maker.id

/-- A worker claims the maker, and writes. -/
def writes (maker : LoopJob) : List Step :=
  [.report maker.id .claimed (some "worker") maker.summary,
    .writeDocument (write loop maker.id), .readMaker (write loop maker.id),
    .lockForDispatch (dispatch loop maker)]

def first : LoopJob := (start loop).job "first"

def submission : Submission where
  jobId := "review"
  verdict := .changesRequested
  findings := []
  summary := "more"
  tokenId := "reviewer"

def review : Review where
  submission := submission
  loop := loop
  job := { (dispatch loop (first loop)).review "review" with
    status := .claimed
    claimedByTokenId := some "reviewer" }
  planReviewLog := none
  autoPlanReview := true
  now := 0

/-- The first round: the review asks for changes. -/
def round : List Step :=
  [.dispatchIdeaJob (start loop), .createIdeaJob (start loop) "first"] ++
    writes loop (first loop) ++
    [.createReview (dispatch loop (first loop)) "review",
      .report "first" .done none none,
      .report "review" .claimed (some "reviewer") (review loop).job.summary,
      .submitReview submission true 0, .lockForVerdict (review loop),
      .searchLoop (review loop), .land (review loop) none "second",
      .stamp (review loop) .revision]

def second : LoopJob :=
  (((review loop).landing none).followUp.map ((review loop).followUpJob "second")).getD (first loop)

/-- The review is reported done before the next maker writes. -/
def inTime : List Step :=
  round loop ++ [.report "review" .done none none] ++ writes loop (second loop) ++
    [.createReview (dispatch loop (second loop)) "next",
      .report "second" .done none none]

/-- The review is reported done after the next maker has written. -/
def late : List Step :=
  round loop ++ writes loop (second loop) ++
    [.report "second" .done none none, .report "review" .done none none]

end LoopRuns

end Reviews
end Scrum4Me
