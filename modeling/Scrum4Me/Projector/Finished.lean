import Scrum4Me.Projector.Convergence

/-!
# Answers that a reader has finished with

Retention deletes the rows that make a delivery idempotent: the version guard and
`ON CONFLICT` look at the hot table alone. As long as no projection is applied to a thread
that the archive already holds, an answer that was acknowledged stays so, and no message
is lost or held twice.
-/

namespace Scrum4Me
namespace Projector

open Foundation
open Dispatch (Uuid Timestamp)
open Queue (MessageStatus)

variable {build : Uuid → Nat → Built} {world world' : World} {requestId : Uuid}
  {row : Message} {tables tables' : Tables} {projection : Projection} {now : Timestamp}

/-! ## The condition -/

/-- The root belongs to something else and nothing is written, or the archive holds no
message of the projection. -/
def Projection.Unarchived (projection : Projection) (tables : Tables) : Prop :=
  ¬ projection.Free .root projection.root.id projection.root.identity tables.hot ∨
    projection.root.id ∉ tables.archive.map (·.id) ∧
      ∀ reply ∈ projection.reply, reply.id ∉ tables.archive.map (·.id)

instance (projection : Projection) (tables : Tables) :
    Decidable (projection.Unarchived tables) :=
  inferInstanceAs (Decidable (¬ _ ∨ _ ∧ ∀ _ ∈ projection.reply, _))

/-- The deliveries whose queue transaction the step commits. -/
def World.committing (world : World) (step : Step) : List Delivery :=
  world.deliveries.filter fun delivery =>
    delivery.stage = .taken ∧ (step = .apply delivery ∨ step = .lose delivery)

/-- The step redelivers nothing that retention has archived. -/
def RedeliversNothingArchived (world : World) (step : Step) : Prop :=
  ∀ delivery ∈ world.committing step, delivery.snapshot.payload.Unarchived world.tables

instance (world : World) (step : Step) : Decidable (RedeliversNothingArchived world step) :=
  inferInstanceAs (Decidable (∀ _ ∈ _, _))

/-! ## One table or the other -/

/-- No message is in both tables. -/
def Tables.Apart (tables : Tables) : Prop :=
  ∀ row ∈ tables.hot, row.id ∉ tables.archive.map (·.id)

theorem archive_apply (applied : projection.applyDispatchProjection now tables = some tables') :
    tables'.archive = tables.archive := by
  obtain ⟨-, ⟨-, rfl⟩ | ⟨reply, -, rfl, -⟩⟩ := apply_some applied
  · exact archive_upsertRoot
  · rw [archive_insertHot, archive_upsertRoot]

/-- Only a message of the projection enters the hot table. -/
theorem Tables.Apart.apply (apart : tables.Apart) (unarchived : projection.Unarchived tables)
    (applied : projection.applyDispatchProjection now tables = some tables') :
    tables'.Apart := by
  obtain ⟨root, replies⟩ := unarchived.resolve_left (not_not_intro (apply_some applied).1)
  intro row member
  rw [archive_apply applied]
  rcases mem_apply applied member with written | ⟨reply, answer, rfl, -⟩
  · rcases mem_upsertRoot.mp written with ⟨old, inside, -, rfl⟩ | ⟨inside, -⟩ | ⟨rfl, -⟩
    · exact apart old inside
    · exact apart row inside
    · exact root
  · exact replies reply answer

theorem Tables.Apart.updateHot {matching : Message → Bool} {change : Message → Message}
    (kept : ∀ row, (change row).id = row.id) (apart : tables.Apart) :
    (tables.updateHot matching change kept).Apart := by
  intro row member
  rcases mem_updateWhere.mp member with ⟨old, inside, -, rfl⟩ | ⟨inside, -⟩
  · exact (kept old).symm ▸ apart old inside
  · exact apart row inside

/-- What moves leaves the hot table. -/
theorem Tables.Apart.moved (apart : tables.Apart) (other : Uuid) : (tables.moved other).Apart := by
  intro row member archived
  have hot : row ∈ tables.hot := List.mem_of_mem_filter (List.mem_of_mem_filter member)
  obtain ⟨stored, inside, same⟩ := List.mem_map.mp archived
  rcases mem_moved_archive inside with before | inThread
  · exact apart row hot (List.mem_map.mpr ⟨stored, before, same⟩)
  · obtain ⟨storedHot, ofOther⟩ := List.mem_filter.mp inThread
    obtain rfl := Tables.eq_of_id tables.hotKeys storedHot hot same
    have still : stored ∈ (tables.moved other).thread other := List.mem_filter.mpr ⟨member, ofOther⟩
    rw [moved_thread_self] at still
    cases still

theorem Tables.Apart.change (apart : world.tables.Apart) {step : Step}
    (admitted : RedeliversNothingArchived world step) (change : TableChange world step tables') :
    tables'.Apart := by
  cases change with
  | kept => exact apart
  | @applied delivery _ member commits applied =>
    refine apart.apply (admitted delivery ?_) applied
    exact List.mem_filter.mpr ⟨member.1, decide_eq_true ⟨member.2, commits⟩⟩
  | read => exact apart.updateHot _
  | recovered => exact apart.updateHot _
  | moved => exact apart.moved _
  | pushed ordinary fresh =>
    intro row member
    rw [archive_insertHot]
    rcases mem_insertHot.mp member with inside | ⟨rfl, -⟩
    · exact apart row inside
    · exact fresh

/-! ## What becomes of a message -/

/-- The same message later; a reply that was done still is. -/
structure Message.Succeeds (later earlier : Message) : Prop where
  id : later.id = earlier.id
  has : ∀ {requestId role}, earlier.Has requestId role → later.Has requestId role
  done : earlier.IsReply → earlier.status = .done → later.status = .done

theorem Message.Succeeds.refl (row : Message) : row.Succeeds row :=
  ⟨rfl, fun has => has, fun _ done => done⟩

theorem Message.Succeeds.isReply {later earlier : Message} (succeeds : later.Succeeds earlier)
    (isReply : earlier.IsReply) : later.IsReply := by
  obtain ⟨managed, found, role⟩ := isReply
  obtain ⟨next, foundNext, -, part⟩ := succeeds.has ⟨managed, found, rfl, role⟩
  exact ⟨next, foundNext, part⟩

theorem Message.Succeeds.trans {first second third : Message} (later : third.Succeeds second)
    (earlier : second.Succeeds first) : third.Succeeds first where
  id := later.id.trans earlier.id
  has := fun has => later.has (earlier.has has)
  done := fun isReply done => later.done (earlier.isReply isReply) (earlier.done isReply done)

theorem Message.Succeeds.of {later earlier : Message} (succeeds : later.Succeeds earlier)
    (ofRequest : earlier.Of requestId) : later.Of requestId :=
  later.of_iff.mpr (earlier.of_iff.mp ofRequest |>.imp succeeds.has succeeds.has)

/-- The messages of the request live on, in the hot table or in the archive. -/
structure Tables.Passes (requestId : Uuid) (tables later : Tables) : Prop where
  hot : ∀ row ∈ tables.hot, row.Of requestId →
    (∃ next ∈ later.hot, next.Succeeds row) ∨ ∃ next ∈ later.archive, next.Succeeds row
  archive : tables.archive ⊆ later.archive

namespace Tables.Passes

theorem refl (tables : Tables) : Passes requestId tables tables :=
  ⟨fun row member _ => .inl ⟨row, member, .refl row⟩, fun _ stored => stored⟩

theorem trans {first second third : Tables} (earlier : Passes requestId first second)
    (later : Passes requestId second third) :
    Passes requestId first third where
  hot := by
    intro row member ofRequest
    rcases earlier.hot row member ofRequest with
      ⟨next, inside, succeeds⟩ | ⟨next, inside, succeeds⟩
    · rcases later.hot next inside (succeeds.of ofRequest) with
        ⟨last, insideLast, again⟩ | ⟨last, insideLast, again⟩
      · exact .inl ⟨last, insideLast, again.trans succeeds⟩
      · exact .inr ⟨last, insideLast, again.trans succeeds⟩
    · exact .inr ⟨next, later.archive inside, succeeds⟩
  archive := fun _ stored => later.archive (earlier.archive stored)

/-- A root is taken to the projection's version, and a reply stays as it is. -/
theorem apply (applied : projection.applyDispatchProjection now tables = some tables') :
    Passes requestId tables tables' := by
  refine ⟨fun row member _ => .inl ?_, fun _ stored => archive_apply applied ▸ stored⟩
  by_cases root : row.Has projection.requestId .root
  · obtain ⟨next, inside, follows⟩ := exists_apply applied member
    exact ⟨next, inside, follows.id, follows.has, fun isReply =>
      (Message.Has.not_root_of_isReply isReply root).elim⟩
  · exact ⟨row, mem_apply_of_not_root applied member root, .refl row⟩

/-- An update of replies that are not done. -/
theorem updateHot {matching : Message → Bool} {change : Message → Message}
    (kept : ∀ row, (change row).id = row.id) (managed : ∀ row, (change row).managed = row.managed)
    (unfinished : ∀ row, matching row = true → row.status ≠ .done) :
    Passes requestId tables (tables.updateHot matching change kept) := by
  refine ⟨fun row member _ => .inl ?_, fun _ stored => stored⟩
  by_cases matched : matching row = true
  · refine ⟨change row, mem_updateWhere.mpr (.inl ⟨row, member, matched, rfl⟩), kept row, ?_,
      fun _ done => absurd done (unfinished row matched)⟩
    intro requestId role has
    unfold Message.Has
    rw [managed]
    exact has
  · exact ⟨row, mem_updateWhere.mpr (.inr ⟨member, Bool.eq_false_of_not_eq_true matched⟩),
      .refl row⟩

/-- A thread moves as a whole: what leaves the hot table is in the archive. -/
theorem moved {other : Uuid} (archivable : tables.Archivable other) :
    Passes requestId tables (tables.moved other) := by
  refine ⟨fun row member ofRequest => ?_, List.subset_append_left _ _⟩
  by_cases apart : other = requestId
  · have inThread : row ∈ tables.thread other :=
      List.mem_filter.mpr ⟨member, decide_eq_true (apart ▸ ofRequest)⟩
    exact .inr ⟨row, (mem_archived_iff inThread).mpr (archivable.apart row inThread), .refl row⟩
  · exact .inl ⟨row, (same_moved apart row ofRequest).mpr member, .refl row⟩

end Tables.Passes

theorem Reading.Admits.not_done {reading : Reading} (admits : reading.Admits row) :
    row.status ≠ .done := by
  intro done
  cases reading <;>
    simp [Reading.Admits, Message.ClaimedBefore, MessageStatus.Terminal, done] at admits

theorem TableChange.passes {step : Step} (change : TableChange world step tables') :
    world.tables.Passes requestId tables' := by
  cases change with
  | kept => exact .refl world.tables
  | applied _ _ applied => exact .apply applied
  | @read _ reading =>
    exact .updateHot _ (reading.change_managed world.now) fun row matched =>
      (of_decide_eq_true matched).2.2.not_done
  | recovered =>
    refine .updateHot _ (fun _ => rfl) fun row matched done => ?_
    have claimed := (of_decide_eq_true matched).2.2.1
    rw [done] at claimed
    cases claimed
  | moved _ archivable => exact .moved archivable
  | pushed =>
    refine ⟨fun row member _ => .inl ⟨row, mem_insertHot.mpr (.inl member), .refl row⟩, ?_⟩
    exact fun _ stored => archive_insertHot.symm ▸ stored

/-! ## Every run -/

/-- What holds of the thread of a request, from one state of a run to a later one. -/
structure Finished (requestId : Uuid) (world later : World) : Prop where
  /-- A reply that was acknowledged is not made readable again. -/
  answers : ∀ row ∈ world.tables.hot ++ world.tables.archive, row.Has requestId .reply →
    row.status = .done → ∀ other ∈ later.tables.hot, other.id = row.id → other.status ≠ .pending
  /-- No message is lost. -/
  held : ∀ row ∈ world.tables.hot ++ world.tables.archive, row.Of requestId →
    ∃ other ∈ later.tables.hot ++ later.tables.archive, other.id = row.id ∧ other.Of requestId
  /-- Where both tables hold a message, they hold it with equal contents. -/
  once : ∀ row ∈ later.tables.hot, ∀ other ∈ later.tables.archive, other.id = row.id →
    other = row

theorem Tables.Passes.finished (passes : world.tables.Passes requestId world'.tables)
    (apart : world'.tables.Apart) :
    Finished requestId world world' := by
  have lives : ∀ row ∈ world.tables.hot ++ world.tables.archive, row.Of requestId →
      (∃ next ∈ world'.tables.hot, next.Succeeds row) ∨
        ∃ next ∈ world'.tables.archive, next.Succeeds row := by
    intro row member ofRequest
    rcases List.mem_append.mp member with hot | archived
    · exact passes.hot row hot ofRequest
    · exact .inr ⟨row, passes.archive archived, .refl row⟩
  refine ⟨fun row member has done other inside same => ?_, fun row member ofRequest => ?_,
    fun row member other stored same =>
      absurd (List.mem_map.mpr ⟨other, stored, same⟩) (apart row member)⟩
  · rcases lives row member (Message.of_of_has has) with
      ⟨next, hot, succeeds⟩ | ⟨next, archived, succeeds⟩
    · obtain rfl := Tables.eq_of_id world'.tables.hotKeys inside hot (same.trans succeeds.id.symm)
      obtain ⟨managed, found, -, role⟩ := has
      rw [succeeds.done ⟨managed, found, role⟩ done]
      exact fun pending => by cases pending
    · exact absurd (List.mem_map.mpr ⟨next, archived, succeeds.id.trans same.symm⟩)
        (apart other inside)
  · rcases lives row member ofRequest with ⟨next, inside, succeeds⟩ | ⟨next, inside, succeeds⟩
    · exact ⟨next, List.mem_append_left _ inside, succeeds.id, succeeds.of ofRequest⟩
    · exact ⟨next, List.mem_append_right _ inside, succeeds.id, succeeds.of ofRequest⟩

/-- In a run that redelivers nothing archived, an answer that a reader has finished with
stays finished, and no message of the thread is lost or held twice. -/
theorem answers_stay_finished (build : Uuid → Nat → Built) (requestId : Uuid) (steps : List Step)
    (admitted : EveryStep (execute build) RedeliversNothingArchived World.initial steps)
    (earlier later : List Step) (first : earlier <+: later) (second : later <+: steps) :
    Finished requestId (run (execute build) World.initial earlier)
      (run (execute build) World.initial later) := by
  have initially : World.initial.tables.Apart := List.forall_mem_nil _
  have apart : (run (execute build) World.initial later).tables.Apart :=
    @run_invariant _ _ (execute build) _ (·.tables.Apart)
      (fun world step apart admitted => apart.change admitted (tableChange build world step))
      _ _ initially (admitted.of_prefix second)
  obtain ⟨rest, rfl⟩ := first
  rw [run_append] at apart ⊢
  refine Tables.Passes.finished ?_ apart
  exact @run_relation _ _ (execute build) (fun _ => True)
    (fun world later => world.tables.Passes requestId later.tables) (fun _ _ _ => trivial)
    (fun world => .refl world.tables) .trans
    (fun world step _ => (tableChange build world step).passes) _ trivial rest

namespace FinishedRuns

open DeliveryRuns (answering)

/-- The answer, as it was written then. -/
def answer (stage : Stage) (nextAttemptAt : Nat) : Delivery where
  snapshot := { DeliveryRuns.snapshot 2 0 0 nextAttemptAt with id := 1 }
  stage := stage

/-- The answer is delivered and acknowledged, and its thread is archived. -/
def handled : List Step :=
  [.writeDispatchOutbox 1 7 2 .succeeded, .take, .apply (answer .taken 0),
    .mark (answer .applied 0), .read 15 (.claimNextReply "jp" 0), .list 7 5, .retain 7]

/-- An administrator hands the row back, and it is delivered again. -/
def again : List Step :=
  [.republishOutbox 0, .take, .apply (answer .taken 7)]

end FinishedRuns

open FinishedRuns DeliveryRuns in
theorem answers_stay_finished_archived :
    (run (execute answering) World.initial handled).tables.hot = [] ∧
      (run (execute answering) World.initial handled).tables.archive.map
          (fun row => (row.id, row.status)) = [(14, .done), (15, .done)] ∧
        Finished 7 (run (execute answering) World.initial (handled.take 5))
          (run (execute answering) World.initial handled) :=
  ⟨by decide +kernel, by decide +kernel,
    answers_stay_finished answering 7 handled (by decide +kernel) (handled.take 5) handled
      (by decide) (by decide)⟩

open FinishedRuns DeliveryRuns in
/-- The reply that was acknowledged is in the hot table again, and pending. -/
theorem acknowledged_answer_readable :
    (∃ row ∈ (run (execute answering) World.initial handled).tables.archive,
        row.Has 7 .reply ∧ row.id = 15 ∧ row.status = .done) ∧
      ∃ row ∈ (run (execute answering) World.initial (handled ++ again)).tables.hot,
        row.id = 15 ∧ row.status = .pending := by
  decide +kernel

end Projector
end Scrum4Me
