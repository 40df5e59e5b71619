import Scrum4Me.Lifecycle.Life

/-!
# What no change takes back

Rows of a life keep their keys, marks are never cleared, and the records of what
happened only grow. `Later` collects this as one relation between two lives of a
request, which every change establishes and which composes along a path.
-/

namespace Scrum4Me
namespace Dispatch

open Foundation

/-- A later version of an attempt. -/
structure AttemptLife.Later (a a' : AttemptLife) : Prop where
  id : a'.id = a.id
  candidateId : a'.candidateId = a.candidateId
  claim : a'.claim = a.claim
  started : a.started = true → a'.started = true
  stopped : a.stopped = true → a'.stopped = true
  revoked : a.revoked = true → a'.revoked = true

theorem AttemptLife.Later.refl (a : AttemptLife) : a.Later a :=
  ⟨rfl, rfl, rfl, fun h => h, fun h => h, fun h => h⟩

theorem AttemptLife.Later.trans {a b c : AttemptLife} (first : a.Later b) (second : b.Later c) :
    a.Later c :=
  ⟨second.id.trans first.id, second.candidateId.trans first.candidateId,
    second.claim.trans first.claim,
    fun h => second.started (first.started h),
    fun h => second.stopped (first.stopped h),
    fun h => second.revoked (first.revoked h)⟩

/-- A later version of a candidate. -/
structure CandidateLife.Later (c c' : CandidateLife) : Prop where
  id : c'.id = c.id
  generation : c'.generation = c.generation

theorem CandidateLife.Later.refl (c : CandidateLife) : c.Later c := ⟨rfl, rfl⟩

/-- A later version of a publication: settled ones stay as they are. -/
structure PublicationLife.Later (p p' : PublicationLife) : Prop where
  id : p'.id = p.id
  attemptId : p'.attemptId = p.attemptId
  settled : ¬ p.state.Unresolved → p' = p

theorem PublicationLife.Later.refl (p : PublicationLife) : p.Later p :=
  ⟨rfl, rfl, fun _ => rfl⟩

/-- A later life of the same request. -/
structure Life.Later (life life' : Life) : Prop where
  attempts : ∀ a ∈ life.attempts, ∃ a' ∈ life'.attempts, a.Later a'
  candidates : ∀ c ∈ life.candidates, ∃ c' ∈ life'.candidates, c.Later c'
  publications : ∀ p ∈ life.publications, ∃ p' ∈ life'.publications, p.Later p'
  scopes : life.scopes <+: life'.scopes
  stops : life.stops <+: life'.stops
  cancellations : life.cancellations <+: life'.cancellations
  announcements : life.announcements <+: life'.announcements

namespace Life.Later

variable {life life' life'' : Life}

theorem refl (life : Life) : life.Later life where
  attempts := fun a member => ⟨a, member, .refl a⟩
  candidates := fun c member => ⟨c, member, rfl, rfl⟩
  publications := fun p member => ⟨p, member, rfl, rfl, fun _ => rfl⟩
  scopes := List.prefix_refl _
  stops := List.prefix_refl _
  cancellations := List.prefix_refl _
  announcements := List.prefix_refl _

theorem trans (first : life.Later life') (second : life'.Later life'') : life.Later life'' where
  attempts := by
    intro a member
    obtain ⟨b, inside, earlier⟩ := first.attempts a member
    obtain ⟨c, found, later⟩ := second.attempts b inside
    exact ⟨c, found, earlier.trans later⟩
  candidates := by
    intro a member
    obtain ⟨b, inside, earlier⟩ := first.candidates a member
    obtain ⟨c, found, later⟩ := second.candidates b inside
    exact ⟨c, found, later.id.trans earlier.id, later.generation.trans earlier.generation⟩
  publications := by
    intro a member
    obtain ⟨b, inside, earlier⟩ := first.publications a member
    obtain ⟨c, found, later⟩ := second.publications b inside
    refine ⟨c, found, later.id.trans earlier.id, later.attemptId.trans earlier.attemptId, ?_⟩
    intro settled
    have same := earlier.settled settled
    subst same
    exact later.settled settled
  scopes := first.scopes.trans second.scopes
  stops := first.stops.trans second.stops
  cancellations := first.cancellations.trans second.cancellations
  announcements := first.announcements.trans second.announcements

theorem stopOf (later : life.Later life') {attemptId : Uuid} (accepted : life.StopOf attemptId) :
    life'.StopOf attemptId :=
  (later.stops.map StopLife.attemptId).subset accepted

end Life.Later

/-! ## Every change leads to a later life -/

variable {life life' : Life}

/-- A life whose attempts and candidates are later, and whose records grew. -/
theorem Life.Later.of_rows (attempts : ∀ a ∈ life.attempts, ∃ a' ∈ life'.attempts, a.Later a')
    (candidates : ∀ c ∈ life.candidates, ∃ c' ∈ life'.candidates, c.Later c')
    (publications : life'.publications = life.publications)
    (scopes : life.scopes <+: life'.scopes) (stops : life.stops <+: life'.stops)
    (cancellations : life.cancellations <+: life'.cancellations)
    (announcements : life.announcements <+: life'.announcements) :
    life.Later life' where
  attempts := attempts
  candidates := candidates
  publications := by
    rw [publications]
    exact (Life.Later.refl life).publications
  scopes := scopes
  stops := stops
  cancellations := cancellations
  announcements := announcements

namespace Life.Later

variable {id : Uuid} {state : DispatchState} {result : ResultRow}

theorem of_setAttempt {change : AttemptLife → AttemptLife}
    (later : ∀ a : AttemptLife, a.Later (change a)) :
    life.Later (life.setAttempt id change) :=
  .of_rows (exists_updateWhere .refl later) (refl life).candidates rfl
    (List.prefix_refl _) (List.prefix_refl _) (List.prefix_refl _)
    (List.prefix_refl _)

theorem of_setCandidate {change : CandidateLife → CandidateLife}
    (later : ∀ c : CandidateLife, c.Later (change c)) :
    life.Later (life.setCandidate id change) :=
  .of_rows (refl life).attempts (exists_updateWhere .refl later) rfl
    (List.prefix_refl _) (List.prefix_refl _) (List.prefix_refl _)
    (List.prefix_refl _)

theorem of_setJob {id : Option Uuid} {status : JobStatus} : life.Later (life.setJob id status) :=
  .of_rows (refl life).attempts (refl life).candidates rfl
    (List.prefix_refl _) (List.prefix_refl _) (List.prefix_refl _)
    (List.prefix_refl _)

theorem of_setReservation {candidateId : Uuid} {change : ReservationLife → ReservationLife} :
    life.Later (life.setReservation candidateId change) :=
  .of_rows (refl life).attempts (refl life).candidates rfl
    (List.prefix_refl _) (List.prefix_refl _) (List.prefix_refl _)
    (List.prefix_refl _)

theorem of_announced {resultId : Option Uuid} : life.Later (life.announced state resultId) :=
  .of_rows (refl life).attempts (refl life).candidates rfl
    (List.prefix_refl _) (List.prefix_refl _) (List.prefix_refl _)
    (List.prefix_append _ _)

theorem of_setPublication {change : PublicationLife → PublicationLife}
    (later : ∀ p : PublicationLife, p.Later (change p)) :
    life.Later (life.setPublication id change) :=
  { refl life with publications := exists_updateWhere .refl later }

theorem of_retireCandidate {candidate : CandidateLife} :
    life.Later (Change.retireCandidate candidate life) := by
  unfold Change.retireCandidate Life.release
  refine trans ?_ of_setReservation
  refine trans ?_ (of_setCandidate fun _ => ⟨rfl, rfl⟩)
  exact of_setJob

variable {x : Execution}

theorem of_closeExecution {outcome : Outcome} :
    life.Later (Change.closeExecution x outcome life) := by
  unfold Change.closeExecution Life.release
  refine trans ?_ of_setReservation
  refine trans ?_ (of_setCandidate fun _ => ⟨rfl, rfl⟩)
  refine trans ?_ of_setJob
  exact of_setAttempt fun _ => ⟨rfl, rfl, rfl, fun h => h, fun h => h, fun _ => rfl⟩

theorem of_moveExecution {attempt : AttemptLife → AttemptLife} {candidate : CandidateState}
    (later : ∀ a : AttemptLife, a.Later (attempt a)) :
    life.Later (Change.moveExecution x attempt candidate state life) := by
  unfold Change.moveExecution
  refine trans ?_ of_announced
  refine trans ?_ (of_setCandidate fun _ => ⟨rfl, rfl⟩)
  exact of_setAttempt later

theorem of_insertResult : life.Later (Change.insertResult result life) :=
  .of_rows (refl life).attempts (refl life).candidates rfl
    (List.prefix_refl _) (List.prefix_refl _) (List.prefix_refl _)
    (List.prefix_refl _)

theorem of_conclude {submitted : ResultHash} :
    life.Later (Change.conclude x result submitted life) := by
  have closed := (of_insertResult.trans of_announced).trans
    (@of_closeExecution ((Change.insertResult result life).announced
      result.outcome.dispatchState (some result.id)) x result.outcome)
  exact .of_rows closed.attempts closed.candidates rfl closed.scopes closed.stops
    closed.cancellations closed.announcements

end Life.Later

/-- Every change leads to a later life. -/
theorem Change.later (change : Change) (life : Life) : life.Later (change.apply life) := by
  have same := Life.Later.refl life
  cases change with
  | reserve =>
    exact .of_rows same.attempts (fun c member => ⟨c, List.mem_append_left _ member, rfl, rfl⟩) rfl
      (List.prefix_refl _) (List.prefix_refl _) (List.prefix_refl _)
      (List.prefix_append _ _)
  | retire => exact Life.Later.of_retireCandidate.trans .of_announced
  | abandon candidate =>
    refine Life.Later.trans ?_ (Life.Later.of_insertResult.trans .of_announced)
    cases candidate with
    | none => exact same
    | some => exact .of_retireCandidate
  | claim =>
    exact .of_rows (fun a member => ⟨a, List.mem_append_left _ member, .refl a⟩)
      (exists_updateWhere .refl fun _ => ⟨rfl, rfl⟩) rfl (List.prefix_refl _)
      (List.prefix_refl _) (List.prefix_refl _) (List.prefix_append _ _)
  | start =>
    exact .of_rows (exists_updateWhere .refl fun _ =>
        ⟨rfl, rfl, rfl, fun _ => rfl, fun h => h, fun h => h⟩)
      (exists_updateWhere .refl fun _ => ⟨rfl, rfl⟩) rfl
      (List.prefix_append _ _) (List.prefix_refl _) (List.prefix_refl _)
      (List.prefix_append _ _)
  | requestStop =>
    exact .of_moveExecution fun _ => ⟨rfl, rfl, rfl, fun h => h, fun h => h, fun _ => rfl⟩
  | stop =>
    exact .of_rows (exists_updateWhere .refl fun _ =>
        ⟨rfl, rfl, rfl, fun h => h, fun _ => rfl, fun _ => rfl⟩)
      same.candidates rfl (List.prefix_refl _) (List.prefix_append _ _)
      (List.prefix_refl _) (List.prefix_refl _)
  | finish => exact .of_conclude
  | recover => exact .of_conclude
  | retry x =>
    have closed := @Life.Later.of_closeExecution life x .failed
    exact .of_rows closed.attempts closed.candidates rfl closed.scopes
      closed.stops closed.cancellations (List.prefix_append _ _)
  | recordCancel =>
    exact .of_rows same.attempts same.candidates rfl (List.prefix_refl _)
      (List.prefix_refl _) (List.prefix_append _ _) (List.prefix_refl _)
  | explain =>
    exact .of_rows same.attempts same.candidates rfl (List.prefix_refl _)
      (List.prefix_refl _) (List.prefix_refl _) (List.prefix_refl _)
  | preparePublication =>
    exact { same with
      publications := fun p member =>
        ⟨p, List.mem_append_left _ member, rfl, rfl, fun _ => rfl⟩ }
  | sendPublication =>
    refine .of_setPublication fun p => ?_
    by_cases prepared : p.state = .prepared
    · simp only [prepared, if_true]
      exact ⟨rfl, rfl, fun settled => (settled (by rw [prepared]; decide)).elim⟩
    · simp only [prepared, if_false]
      exact ⟨rfl, rfl, fun _ => rfl⟩
  | settlePublication =>
    refine .of_setPublication fun p => ?_
    by_cases unresolved : p.state.Unresolved
    · simp only [unresolved, if_true]
      exact ⟨rfl, rfl, fun settled => (settled unresolved).elim⟩
    · simp only [unresolved, if_false]
      exact ⟨rfl, rfl, fun _ => rfl⟩
  | _ => exact .of_moveExecution fun _ => ⟨rfl, rfl, rfl, fun h => h, fun h => h, fun h => h⟩

/-- A path leads to a later life. -/
theorem Life.later_applyAll (life : Life) (changes : List Change) :
    life.Later (life.applyAll changes) := by
  induction changes generalizing life with
  | nil => exact .refl life
  | cons change rest ih => exact (change.later life).trans (ih _)

end Dispatch
end Scrum4Me
