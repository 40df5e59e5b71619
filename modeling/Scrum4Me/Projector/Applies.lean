import Scrum4Me.Projector.Deliveries
import Scrum4Me.Projector.Retention

/-!
# What the projector's transaction writes

The messages of the hot table after a projection is applied: the root of the request at
this version or a later one, the reply, and everything else as it was.
-/

namespace Scrum4Me
namespace Projector

open Foundation
open Dispatch (Uuid Timestamp)
open Queue (MessageStatus)

variable {tables tables' : Tables} {row new : Message} {now : Timestamp}
  {projection : Projection} {requestId : Uuid} {version : Nat}

/-! ## Tables -/

theorem Reading.change_id (reading : Reading) (now : Timestamp) (row : Message) :
    (reading.change now row).id = row.id := by
  cases reading <;> rfl

theorem Reading.change_managed (reading : Reading) (now : Timestamp) (row : Message) :
    (reading.change now row).managed = row.managed := by
  cases reading <;> rfl

theorem mem_insertHot :
    row ∈ (tables.insertHot new).hot ↔
      row ∈ tables.hot ∨ row = new ∧ new.id ∉ tables.hot.map (·.id) := by
  unfold Tables.insertHot
  split
  · rename_i absent
    rw [List.mem_append, List.mem_singleton]
    exact or_congr_right (iff_self_and.mpr fun _ => absent)
  · rename_i present
    exact ⟨.inl, fun member => member.elim id fun inserted => absurd inserted.2 present⟩

@[simp] theorem archive_insertHot : (tables.insertHot new).archive = tables.archive := by
  unfold Tables.insertHot
  split <;> rfl

/-- A row of the thread of a request, besides its version. -/
structure Message.Follows (later earlier : Message) : Prop where
  id : later.id = earlier.id
  identity : later.identity = earlier.identity
  createdAt : later.createdAt = earlier.createdAt
  managed : ∀ managed ∈ earlier.managed, ∃ raised ∈ later.managed,
    raised.requestId = managed.requestId ∧ raised.role = managed.role ∧
      managed.version ≤ raised.version

theorem Message.Follows.refl (row : Message) : row.Follows row :=
  ⟨rfl, rfl, rfl, fun managed found => ⟨managed, found, rfl, rfl, Nat.le_refl _⟩⟩

theorem Message.Follows.trans {first second third : Message} (later : third.Follows second)
    (earlier : second.Follows first) :
    third.Follows first where
  id := later.id.trans earlier.id
  identity := later.identity.trans earlier.identity
  createdAt := later.createdAt.trans earlier.createdAt
  managed := by
    intro managed found
    obtain ⟨middle, foundMiddle, request, role, version⟩ := earlier.managed managed found
    obtain ⟨last, foundLast, request', role', version'⟩ := later.managed middle foundMiddle
    exact ⟨last, foundLast, request'.trans request, role'.trans role, version.trans version'⟩

theorem Message.Follows.has
    {later earlier : Message} {role : Role} (follows : later.Follows earlier)
    (has : earlier.Has requestId role) :
    later.Has requestId role := by
  obtain ⟨managed, found, request, part⟩ := has
  obtain ⟨raised, foundLater, request', part', -⟩ := follows.managed managed found
  exact ⟨raised, foundLater, request'.trans request, part'.trans part⟩

/-! ## The root -/

theorem raises_has (raises : projection.Raises row) : row.Has projection.requestId .root := by
  obtain ⟨managed, found, request, role, -⟩ := raises
  exact ⟨managed, found, request, role⟩

theorem raised_follows (raises : projection.Raises row) :
    (projection.raised now row).Follows row where
  id := rfl
  identity := rfl
  createdAt := rfl
  managed := by
    obtain ⟨managed, found, request, role, lower⟩ := raises
    intro other foundOther
    obtain rfl : managed = other := Option.some.inj (found.symm.trans foundOther)
    refine ⟨{ managed with version := projection.version }, ?_, rfl, rfl, lower.le⟩
    exact Option.mem_map_of_mem _ found

theorem mem_upsertRoot :
    row ∈ (projection.upsertRoot now tables).hot ↔
      (∃ old ∈ tables.hot, (old.id = projection.root.id ∧ projection.Raises old) ∧
        projection.raised now old = row) ∨
      (row ∈ tables.hot ∧ ¬ (row.id = projection.root.id ∧ projection.Raises row)) ∨
        row = projection.rootRow now ∧ projection.root.id ∉ tables.hot.map (·.id) := by
  unfold Projection.upsertRoot
  split
  · rename_i present
    show row ∈ updateWhere _ _ tables.hot ↔ _
    rw [mem_updateWhere]
    simp only [decide_eq_true_iff, decide_eq_false_iff_not, present, not_true, and_false, or_false]
  · rename_i absent
    rw [mem_insertHot]
    have none : ∀ old ∈ tables.hot, old.id ≠ projection.root.id :=
      fun old member same => absent (List.mem_map.mpr ⟨old, member, same⟩)
    constructor
    · rintro (member | inserted)
      · exact .inr (.inl ⟨member, fun raises => none row member raises.1⟩)
      · exact .inr (.inr inserted)
    · rintro (⟨old, member, raises, -⟩ | ⟨member, -⟩ | inserted)
      · exact absurd raises.1 (none old member)
      · exact .inl member
      · exact .inr inserted

@[simp] theorem archive_upsertRoot :
    (projection.upsertRoot now tables).archive = tables.archive := by
  unfold Projection.upsertRoot
  split
  · rfl
  · exact archive_insertHot

/-! ## The transaction -/

/-- What a projection that is applied leaves. -/
theorem apply_some (applied : projection.applyDispatchProjection now tables = some tables') :
    projection.Free .root projection.root.id projection.root.identity tables.hot ∧
      ((projection.reply = none ∧ tables' = projection.upsertRoot now tables) ∨
        ∃ reply, projection.reply = some reply ∧
          tables' = (projection.upsertRoot now tables).insertHot (projection.replyRow reply now) ∧
          projection.Free .reply reply.id reply.identity tables'.hot) := by
  unfold Projection.applyDispatchProjection at applied
  split at applied
  · rename_i free
    refine ⟨free, ?_⟩
    cases answer : projection.reply with
    | none =>
      rw [answer] at applied
      exact .inl ⟨rfl, (Option.some.inj applied).symm⟩
    | some reply =>
      rw [answer] at applied
      dsimp only [Option.elim_some] at applied
      split at applied
      · rename_i freeReply
        cases applied
        exact .inr ⟨reply, rfl, rfl, freeReply⟩
      · cases applied
  · cases applied

/-- Every row of the hot table afterwards. -/
theorem mem_apply (applied : projection.applyDispatchProjection now tables = some tables')
    (member : row ∈ tables'.hot) :
    row ∈ (projection.upsertRoot now tables).hot ∨
      ∃ reply ∈ projection.reply, row = projection.replyRow reply now ∧
        reply.id ∉ (projection.upsertRoot now tables).hot.map (·.id) := by
  obtain ⟨-, ⟨-, rfl⟩ | ⟨reply, answer, rfl, -⟩⟩ := apply_some applied
  · exact .inl member
  · rcases mem_insertHot.mp member with old | ⟨inserted, absent⟩
    · exact .inl old
    · exact .inr ⟨reply, answer, inserted, absent⟩

theorem upsertRoot_subset (applied : projection.applyDispatchProjection now tables = some tables')
    (member : row ∈ (projection.upsertRoot now tables).hot) :
    row ∈ tables'.hot := by
  obtain ⟨-, ⟨-, rfl⟩ | ⟨reply, -, rfl, -⟩⟩ := apply_some applied
  · exact member
  · exact mem_insertHot.mpr (.inl member)

/-- A row that is not the root of the request stays as it is. -/
theorem mem_apply_of_not_root
    (applied : projection.applyDispatchProjection now tables = some tables')
    (member : row ∈ tables.hot) (apart : ¬ row.Has projection.requestId .root) :
    row ∈ tables'.hot :=
  upsertRoot_subset applied (mem_upsertRoot.mpr
    (.inr (.inl ⟨member, fun raises => apart (raises_has raises.2)⟩)))

/-- Every row lives on. -/
theorem exists_apply (applied : projection.applyDispatchProjection now tables = some tables')
    (member : row ∈ tables.hot) :
    ∃ later ∈ tables'.hot, later.Follows row := by
  by_cases raises : row.id = projection.root.id ∧ projection.Raises row
  · refine ⟨projection.raised now row, ?_, raised_follows raises.2⟩
    exact upsertRoot_subset applied (mem_upsertRoot.mpr (.inl ⟨row, member, raises, rfl⟩))
  · refine ⟨row, ?_, .refl row⟩
    exact upsertRoot_subset applied (mem_upsertRoot.mpr (.inr (.inl ⟨member, raises⟩)))

/-- The hot table holds the request at this version or a later one. -/
def AtLeast (rows : List Message) (requestId : Uuid) (version : Nat) : Prop :=
  ∃ row ∈ rows, ∃ managed ∈ row.managed, managed.requestId = requestId ∧
    managed.role = .root ∧ version ≤ managed.version

/-- After the transaction it does. -/
theorem apply_atLeast (applied : projection.applyDispatchProjection now tables = some tables') :
    AtLeast tables'.hot projection.requestId projection.version := by
  have free := (apply_some applied).1
  by_cases present : projection.root.id ∈ tables.hot.map (·.id)
  · obtain ⟨old, member, same⟩ := List.mem_map.mp present
    obtain ⟨managed, found, request, role⟩ := (free old member same).1
    by_cases lower : managed.version < projection.version
    · have raises : projection.Raises old := ⟨managed, found, request, role, lower⟩
      refine ⟨projection.raised now old,
        upsertRoot_subset applied (mem_upsertRoot.mpr (.inl ⟨old, member, ⟨same, raises⟩, rfl⟩)),
        { managed with version := projection.version }, ?_, request, role, Nat.le_refl _⟩
      exact Option.mem_map_of_mem _ found
    · refine ⟨old, upsertRoot_subset applied (mem_upsertRoot.mpr
        (.inr (.inl ⟨member, ?_⟩))), managed, found, request, role, Nat.le_of_not_lt lower⟩
      rintro ⟨-, other, foundOther, -, -, lowerOther⟩
      obtain rfl : managed = other := Option.some.inj (found.symm.trans foundOther)
      exact lower lowerOther
  · exact ⟨projection.rootRow now,
      upsertRoot_subset applied (mem_upsertRoot.mpr (.inr (.inr ⟨rfl, present⟩))),
      _, rfl, rfl, rfl, Nat.le_refl _⟩

theorem AtLeast.of_follows {rows later : List Message}
    (lives : ∀ row ∈ rows, row.Has requestId .root → ∃ row' ∈ later, row'.Follows row)
    (atLeast : AtLeast rows requestId version) :
    AtLeast later requestId version := by
  obtain ⟨row, member, managed, found, request, role, reached⟩ := atLeast
  obtain ⟨row', member', follows⟩ := lives row member ⟨managed, found, request, role⟩
  obtain ⟨raised, foundLater, request', role', grown⟩ := follows.managed managed found
  exact ⟨row', member', raised, foundLater, request'.trans request, role'.trans role,
    reached.trans grown⟩

/-- The columns of a root are those of the projection. -/
structure Message.Shows (row : Message) (projection : Projection) : Prop where
  id : row.id = projection.root.id
  identity : row.identity = projection.root.identity
  body : row.body = projection.root.body
  metaText : row.metaText = projection.root.metaText
  status : row.status = projection.root.status
  managed : row.managed = some
    { requestId := projection.requestId, role := .root, version := projection.version }

/-- A root afterwards is one from before, or shows the projection. -/
theorem root_apply (applied : projection.applyDispatchProjection now tables = some tables')
    (member : row ∈ tables'.hot) (has : row.Has requestId .root) :
    row ∈ tables.hot ∨ projection.requestId = requestId ∧ row.Shows projection := by
  have free := (apply_some applied).1
  rcases mem_apply applied member with written | ⟨reply, -, rfl, -⟩
  · rcases mem_upsertRoot.mp written with
      ⟨old, inside, ⟨same, raises⟩, rfl⟩ | ⟨inside, -⟩ | ⟨rfl, -⟩
    · obtain ⟨managed, found, request, role, -⟩ := raises
      obtain ⟨raised, foundRaised, requestRaised, -⟩ := has
      have columns : (projection.raised now old).managed =
          some { managed with version := projection.version } :=
        Option.mem_map_of_mem _ found
      obtain rfl := Option.some.inj (columns.symm.trans foundRaised)
      refine .inr ⟨request.symm.trans requestRaised, same, (free old inside same).2, rfl,
        rfl, rfl, ?_⟩
      rw [columns, ← request, ← role]
    · exact .inl inside
    · obtain ⟨managed, found, request, -⟩ := has
      cases found
      exact .inr ⟨request, rfl, rfl, rfl, rfl, rfl, rfl⟩
  · obtain ⟨managed, found, -, role⟩ := has
    cases found
    cases role

/-- A reply afterwards is one from before, or that of the projection. -/
theorem reply_apply (applied : projection.applyDispatchProjection now tables = some tables')
    (member : row ∈ tables'.hot) (has : row.Has requestId .reply) :
    row ∈ tables.hot ∨ projection.requestId = requestId ∧
      ∃ reply ∈ projection.reply, row = projection.replyRow reply now ∧
        reply.id ∉ (projection.upsertRoot now tables).hot.map (·.id) := by
  rcases mem_apply applied member with written | ⟨reply, answer, rfl, absent⟩
  · rcases mem_upsertRoot.mp written with
      ⟨old, inside, ⟨same, raises⟩, rfl⟩ | ⟨inside, -⟩ | ⟨rfl, -⟩
    · obtain ⟨managed, found, -, role, -⟩ := raises
      obtain ⟨raised, foundRaised, -, roleRaised⟩ := has
      have columns : (projection.raised now old).managed =
          some { managed with version := projection.version } :=
        Option.mem_map_of_mem _ found
      obtain rfl := Option.some.inj (columns.symm.trans foundRaised)
      exact absurd (role.symm.trans roleRaised) (by decide)
    · exact .inl inside
    · obtain ⟨managed, found, -, role⟩ := has
      cases found
      cases role
  · obtain ⟨managed, found, request, -⟩ := has
    cases found
    exact .inr ⟨request, reply, answer, rfl, absent⟩

/-- A reply that was not there is inserted. -/
theorem answers_apply (applied : projection.applyDispatchProjection now tables = some tables')
    (answers : projection.Answers now tables) :
    ∃ row ∈ tables'.hot, row.Has projection.requestId .reply := by
  obtain ⟨reply, answer, absent⟩ := answers
  obtain ⟨-, ⟨none, -⟩ | ⟨other, some, rfl, -⟩⟩ := apply_some applied
  · rw [none] at answer
    cases answer
  · obtain rfl : other = reply := Option.some.inj (some.symm.trans answer)
    exact ⟨_, mem_insertHot.mpr (.inr ⟨rfl, absent⟩), _, rfl, rfl, rfl⟩

/-! ## What a step does to the messages -/

/-- The tables after a step. -/
inductive TableChange (world : World) (step : Step) : Tables → Prop
  | kept : TableChange world step world.tables
  | applied {delivery : Delivery} {tables : Tables}
      (member : delivery ∈ world.deliveries ∧ delivery.stage = .taken)
      (commits : step = .apply delivery ∨ step = .lose delivery)
      (applied : delivery.snapshot.payload.applyDispatchProjection world.now world.tables =
        some tables) :
      TableChange world step tables
  | read {id : Uuid} {reading : Reading} (isRead : step = .read id reading) :
      TableChange world step (world.tables.updateHot
        (fun row => row.id = id ∧ row.IsReply ∧ reading.Admits row)
        (fun row => reading.change world.now row) (reading.change_id world.now))
  | recovered {before : Timestamp} {ids : List Uuid}
      (isRecovery : step = .recoverForgottenReplyReads before ids) :
      TableChange world step (world.tables.updateHot
        (fun row => row.id ∈ ids ∧ row.IsReply ∧ row.ClaimedBefore before)
        Message.readable (fun _ => rfl))
  | moved {other : Uuid} (isRetention : step = .retain other)
      (archivable : world.tables.Archivable other) :
      TableChange world step (world.tables.moved other)
  | pushed {row : Message} (ordinary : row.managed = none)
      (fresh : row.id ∉ world.tables.archive.map (·.id)) :
      TableChange world step (world.tables.insertHot row)

variable {world : World} {step : Step}

theorem tableChange_apply {delivery : Delivery} {stage : Stage}
    (member : delivery ∈ world.deliveries ∧ delivery.stage = .taken)
    (commits : step = .apply delivery ∨ step = .lose delivery) :
    TableChange world step (world.apply delivery stage).tables := by
  unfold World.apply
  split
  · rename_i tables applied
    exact .applied member commits applied
  · exact .kept

/-- A retention moves a thread that is archivable, or does nothing. -/
theorem tableChange_retain {other : Uuid} (isRetention : step = .retain other) :
    TableChange world step (world.retain other).tables := by
  unfold World.retain Tables.retainThread
  by_cases waits : world.tables.Waits other
  · rw [if_pos waits]
    exact .kept
  · rw [if_neg waits]
    by_cases copied : world.tables.Copied other
    · rw [if_pos copied]
      exact .moved isRetention (Tables.archivable_iff.mpr ⟨waits, copied⟩)
    · rw [if_neg copied]
      exact .kept

theorem tableChange (build : Uuid → Nat → Built) (world : World) (step : Step) :
    TableChange world step (world.effect build step).tables := by
  cases step with
  | apply delivery =>
    dsimp only [World.effect]
    split
    · rename_i member
      exact tableChange_apply member (.inl rfl)
    · exact .kept
  | lose delivery =>
    dsimp only [World.effect]
    split
    · rename_i member
      exact tableChange_apply member (.inr rfl)
    · exact .kept
  | retain other =>
    dsimp only [World.effect]
    split
    · exact tableChange_retain rfl
    · exact .kept
  | push row =>
    dsimp only [World.effect]
    split
    · rename_i ordinary
      exact .pushed ordinary.1 ordinary.2
    · exact .kept
  | recoverForgottenReplyReads => exact .recovered rfl
  | read => exact .read rfl
  | take => dsimp only [World.effect]; cases world.selected? <;> exact .kept
  | recoveryEvent => exact .kept
  | crash => exact .kept
  | republishOutbox => exact .kept
  | wait => exact .kept
  | _ => dsimp only [World.effect]; split <;> exact .kept

end Projector
end Scrum4Me
