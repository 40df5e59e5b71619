import Scrum4Me.Foundation.Execution
import Scrum4Me.Projector.Applies

/-!
# The projection converges

However deliveries interleave, fail and are repeated, the root of a request shows a
version that was emitted and never goes back to an earlier one, its reply is inserted
once, and a row that is marked published is in the queue, at its version or a later one.
-/

namespace Scrum4Me
namespace Projector

open Foundation
open Dispatch (Uuid Timestamp)
open Queue (MessageStatus)

variable {build : Uuid → Nat → Built} {world world' : World} {requestId : Uuid}
  {before after : List Message} {row : Message} {tables : Tables}

/-- The projections that the store has emitted. -/
def World.payloads (world : World) : List Projection := world.outbox.map (·.payload)

/-! ## Messages that a step leaves alone -/

/-- The roots of the request are as before, and its replies are the same rows. -/
structure Calm (requestId : Uuid) (before after : List Message) : Prop where
  roots : ∀ row : Message, row.Has requestId .root → (row ∈ after ↔ row ∈ before)
  replies : ∀ row ∈ after, row.Has requestId .reply →
    ∃ old ∈ before, old.Has requestId .reply ∧ old.id = row.id
  lives : ∀ row ∈ before, row.Has requestId .reply →
    ∃ later ∈ after, later.Has requestId .reply

theorem Calm.refl (requestId : Uuid) (rows : List Message) : Calm requestId rows rows where
  roots := fun _ _ => Iff.rfl
  replies := fun row member has => ⟨row, member, has, rfl⟩
  lives := fun row member has => ⟨row, member, has⟩

theorem Calm.atLeast {version : Nat} (calm : Calm requestId before after)
    (atLeast : AtLeast before requestId version) :
    AtLeast after requestId version :=
  atLeast.of_follows fun row member has => ⟨row, (calm.roots row has).mpr member, .refl row⟩

theorem Message.Has.not_root_of_isReply (isReply : row.IsReply) (has : row.Has requestId .root) :
    False := by
  obtain ⟨managed, found, role⟩ := isReply
  obtain ⟨other, foundOther, -, part⟩ := has
  obtain rfl := Option.some.inj (found.symm.trans foundOther)
  exact absurd (role.symm.trans part) (by decide)

/-- An update of replies, in columns besides the identifier and the dispatch columns. -/
theorem calm_updateHot {matching : Message → Bool} {change : Message → Message}
    {kept : ∀ row, (change row).id = row.id} (ofReplies : ∀ row, matching row = true → row.IsReply)
    (managed : ∀ row, (change row).managed = row.managed) :
    Calm requestId tables.hot (tables.updateHot matching change kept).hot := by
  have sameRole : ∀ row : Message, ∀ role,
      (change row).Has requestId role ↔ row.Has requestId role := by
    intro row role
    unfold Message.Has
    rw [managed]
  refine ⟨fun row has => ?_, fun row member has => ?_, fun row member has => ?_⟩
  · refine mem_updateWhere_apart ?_ ?_
    · rw [Bool.eq_false_iff]
      exact fun matched => Message.Has.not_root_of_isReply (ofReplies row matched) has
    · rintro old - matched rfl
      exact Message.Has.not_root_of_isReply (ofReplies old matched) ((sameRole old .root).mp has)
  · rcases mem_updateWhere.mp member with ⟨old, inside, -, rfl⟩ | ⟨inside, -⟩
    · exact ⟨old, inside, (sameRole old .reply).mp has, (kept old).symm⟩
    · exact ⟨row, inside, has, rfl⟩
  · obtain ⟨later, inside, follows⟩ := @exists_updateWhere _ matching change tables.hot
      (fun old later => old.Has requestId .reply → later.Has requestId .reply)
      (fun _ has => has) (fun old => (sameRole old .reply).mpr) row member
    exact ⟨later, inside, follows has⟩

theorem Message.of_of_has {role : Role} (has : row.Has requestId role) : row.Of requestId := by
  obtain ⟨managed, found, request, -⟩ := has
  exact ⟨managed, found, request⟩

/-- Where the rows of the request are the same rows. -/
theorem calm_of_same (same : ∀ row : Message, row.Of requestId → (row ∈ after ↔ row ∈ before)) :
    Calm requestId before after where
  roots := fun row has => same row (Message.of_of_has has)
  replies := fun row member has => ⟨row, (same row (Message.of_of_has has)).mp member, has, rfl⟩
  lives := fun row member has => ⟨row, (same row (Message.of_of_has has)).mpr member, has⟩

/-- An ordinary message is in no thread. -/
theorem same_insertHot
    (ordinary : row.managed = none) (other : Message) (ofRequest : other.Of requestId) :
    other ∈ (tables.insertHot row).hot ↔ other ∈ tables.hot := by
  rw [mem_insertHot]
  refine ⟨fun member => member.elim id ?_, .inl⟩
  rintro ⟨rfl, -⟩
  obtain ⟨managed, found, -⟩ := ofRequest
  rw [ordinary] at found
  cases found

/-- The retention of another thread leaves this one. -/
theorem same_moved {other : Uuid} (apart : other ≠ requestId) (row : Message)
    (ofRequest : row.Of requestId) :
    row ∈ (tables.moved other).hot ↔ row ∈ tables.hot := by
  have notOther : ¬ row.Of other := fun also => apart (also.unique row ofRequest)
  show row ∈ tables.removed other ↔ _
  unfold Tables.removed
  rw [List.mem_filter, List.mem_filter, decide_eq_true_eq, decide_eq_true_eq]
  refine ⟨fun member => member.1.1, fun member => ⟨⟨member, ?_⟩, ?_⟩⟩
  · exact fun reply => notOther (Message.of_of_has reply)
  · exact fun root => notOther (Message.of_of_has root)

/-! ## What holds in every state -/

/-- The threads of the queue are those of emitted projections. -/
structure Sound (build : Uuid → Nat → Built) (requestId : Uuid) (world : World) : Prop where
  emitted : ∀ payload ∈ world.payloads,
    payload = projectionOf build payload.requestId payload.version
  rising : world.payloads.Pairwise fun first second =>
    first.requestId = second.requestId → first.version < second.version
  held : ∀ delivery ∈ world.deliveries, delivery.snapshot.payload ∈ world.payloads
  roots : ∀ row ∈ world.tables.hot, row.Has requestId .root →
    ∃ payload ∈ world.payloads, payload.requestId = requestId ∧ row.Shows payload
  replies : ∀ row ∈ world.tables.hot, row.Has requestId .reply →
    ∃ payload ∈ world.payloads, payload.requestId = requestId ∧
      ∃ reply ∈ payload.reply, row.id = reply.id
  applied : ∀ delivery ∈ world.deliveries, delivery.stage = .applied →
    delivery.snapshot.payload.requestId = requestId →
      AtLeast world.tables.hot requestId delivery.snapshot.payload.version
  published : ∀ snapshot ∈ world.outbox, snapshot.publishedAt ≠ none →
    snapshot.payload.requestId = requestId →
      AtLeast world.tables.hot requestId snapshot.payload.version
  answered : world.answered.count requestId ≤ 1
  present : requestId ∈ world.answered →
    ∃ row ∈ world.tables.hot, row.Has requestId .reply

/-- A step that leaves the threads and the outbox alone. -/
theorem Sound.calm (sound : Sound build requestId world) (outbox : world'.outbox = world.outbox)
    (answered : world'.answered = world.answered)
    (calm : Calm requestId world.tables.hot world'.tables.hot)
    (held : ∀ delivery ∈ world'.deliveries, delivery.snapshot.payload ∈ world.payloads ∧
        (delivery.stage = .applied → delivery ∈ world.deliveries)) :
    Sound build requestId world' := by
  have payloads : world'.payloads = world.payloads := by
    unfold World.payloads
    rw [outbox]
  refine
    { emitted := payloads ▸ sound.emitted
      rising := payloads ▸ sound.rising
      held := fun delivery member => payloads ▸ (held delivery member).1
      roots := ?_
      replies := ?_
      applied := ?_
      published := ?_
      answered := answered ▸ sound.answered
      present := ?_ }
  · intro row member has
    rw [payloads]
    exact sound.roots row ((calm.roots row has).mp member) has
  · intro row member has
    obtain ⟨old, inside, hadBefore, same⟩ := calm.replies row member has
    rw [payloads, ← same]
    exact sound.replies old inside hadBefore
  · intro delivery member stage named
    exact calm.atLeast (sound.applied delivery ((held delivery member).2 stage) stage named)
  · intro snapshot member done named
    exact calm.atLeast (sound.published snapshot (outbox ▸ member) done named)
  · intro member
    obtain ⟨row, inside, has⟩ := sound.present (answered ▸ member)
    exact calm.lives row inside has

/-- A step that writes delivery marks only. -/
theorem Sound.marks
    (sound : Sound build requestId world) (payloads : world'.payloads = world.payloads)
    (tables : world'.tables = world.tables) (answered : world'.answered = world.answered)
    (deliveries : world'.deliveries ⊆ world.deliveries)
    (published : ∀ snapshot ∈ world'.outbox, snapshot.publishedAt ≠ none →
      snapshot.payload.requestId = requestId →
        AtLeast world.tables.hot requestId snapshot.payload.version) :
    Sound build requestId world' where
  emitted := payloads ▸ sound.emitted
  rising := payloads ▸ sound.rising
  held := fun delivery member => payloads ▸ sound.held delivery (deliveries member)
  roots := by
    rw [tables, payloads]
    exact sound.roots
  replies := by
    rw [tables, payloads]
    exact sound.replies
  applied := by
    rw [tables]
    exact fun delivery member => sound.applied delivery (deliveries member)
  published := by
    rw [tables]
    exact published
  answered := answered ▸ sound.answered
  present := by
    rw [tables, answered]
    exact sound.present

theorem mem_staged {delivery other : Delivery} {stage : Stage}
    (member : other ∈ (world.staged delivery stage).deliveries) :
    other ∈ world.deliveries ∨ other = { delivery with stage := stage } := by
  rcases List.mem_append.mp member with old | new
  · exact .inl (List.mem_of_mem_erase old)
  · exact .inr (List.mem_singleton.mp new)

/-- A reply that is inserted is the first of its request. -/
theorem Sound.not_answers
    {delivery : Delivery} (steady : Steady build) (sound : Sound build requestId world)
    (member : delivery ∈ world.deliveries) (named : delivery.snapshot.payload.requestId = requestId)
    (answered : requestId ∈ world.answered) :
    ¬ delivery.snapshot.payload.Answers world.now world.tables := by
  rintro ⟨reply, answer, absent⟩
  obtain ⟨row, inside, has⟩ := sound.present answered
  obtain ⟨payload, emitted, request, other, otherAnswer, same⟩ := sound.replies row inside has
  have own := sound.emitted _ (sound.held delivery member)
  have old := sound.emitted payload emitted
  have equal : reply = other := by
    refine steady.reply requestId delivery.snapshot.payload.version payload.version
      reply ?_ other ?_
    · rw [own, named] at answer
      exact answer
    · rw [old, request] at otherAnswer
      exact otherAnswer
  refine absent (List.mem_map.mpr ⟨row, ?_, same.trans (congrArg _ equal.symm)⟩)
  refine mem_upsertRoot.mpr (.inr (.inl ⟨inside, fun raises => ?_⟩))
  obtain ⟨managed, found, -, role⟩ := has
  exact Message.Has.not_root_of_isReply ⟨managed, found, role⟩ (raises_has raises.2)

/-- A delivery is applied, and the projector hears of it or not. -/
theorem Sound.apply {delivery : Delivery} {stage : Stage} (steady : Steady build)
    (sound : Sound build requestId world) (member : delivery ∈ world.deliveries) :
    Sound build requestId (world.apply delivery stage) := by
  unfold World.apply
  split
  · rename_i tables applied
    have lives : ∀ {version}, AtLeast world.tables.hot requestId version →
        AtLeast tables.hot requestId version :=
      fun atLeast => atLeast.of_follows fun row inside _ => exists_apply applied inside
    refine
      { emitted := sound.emitted
        rising := sound.rising
        held := ?_
        roots := ?_
        replies := ?_
        applied := ?_
        published := fun snapshot inside done named =>
          lives (sound.published snapshot inside done named)
        answered := ?_
        present := ?_ }
    · intro other inside
      rcases mem_staged inside with old | rfl
      · exact sound.held other old
      · exact sound.held delivery member
    · intro row inside has
      rcases root_apply applied inside has with old | ⟨named, shows⟩
      · exact sound.roots row old has
      · exact ⟨_, sound.held delivery member, named, shows⟩
    · intro row inside has
      rcases reply_apply applied inside has with old | ⟨named, reply, answer, rfl, -⟩
      · exact sound.replies row old has
      · exact ⟨_, sound.held delivery member, named, reply, answer, rfl⟩
    · intro other inside done named
      rcases mem_staged inside with old | rfl
      · exact lives (sound.applied other old done named)
      · exact named ▸ apply_atLeast applied
    · dsimp only
      split
      · rename_i answers
        rw [List.count_append, List.count_singleton]
        by_cases named : delivery.snapshot.payload.requestId = requestId
        · have first : requestId ∉ world.answered := fun already =>
            sound.not_answers steady member named already answers
          rw [List.count_eq_zero.mpr first, named]
          simp
        · simpa [named] using sound.answered
      · exact sound.answered
    · intro already
      by_cases old : requestId ∈ world.answered
      · obtain ⟨row, inside, has⟩ := sound.present old
        refine ⟨row, mem_apply_of_not_root applied inside ?_, has⟩
        obtain ⟨managed, found, -, role⟩ := has
        exact fun root => Message.Has.not_root_of_isReply ⟨managed, found, role⟩ root
      · dsimp only at already
        split at already
        · rename_i answers
          rcases mem_inserted.mp already with before | rfl
          · exact absurd before old
          · exact answers_apply applied answers
        · exact absurd already old
  · refine sound.calm rfl rfl (.refl _ _) fun other inside => ?_
    rcases mem_staged inside with old | rfl
    · exact ⟨sound.held other old, fun _ => old⟩
    · exact ⟨sound.held delivery member, fun done => by cases done⟩

theorem payloads_updateWhere {matching : Snapshot → Bool} {change : Snapshot → Snapshot}
    (kept : ∀ row, (change row).payload = row.payload) :
    (updateWhere matching change world.outbox).map (·.payload) = world.payloads :=
  map_updateWhere_of_unchanged kept world.outbox

/-- What is marked was applied before. -/
theorem Sound.mark {delivery : Delivery} (sound : Sound build requestId world)
    (member : delivery ∈ world.deliveries) (applied : delivery.stage = .applied) :
    Sound build requestId (world.mark delivery) := by
  refine sound.marks (payloads_updateWhere fun _ => rfl) rfl rfl
    (fun other inside => List.mem_of_mem_erase inside) ?_
  intro snapshot inside done named
  rcases mem_updateWhere.mp inside with ⟨old, oldInside, matched, rfl⟩ | ⟨oldInside, -⟩
  · obtain ⟨request, older, -⟩ := of_decide_eq_true matched
    obtain ⟨row, rowInside, managed, found, ofRequest, role, reached⟩ :=
      sound.applied delivery member applied (request.symm.trans named)
    exact ⟨row, rowInside, managed, found, ofRequest, role, older.trans reached⟩
  · exact sound.published snapshot oldInside done named

theorem Sound.backOff {delivery : Delivery} (sound : Sound build requestId world) (seconds : Nat) :
    Sound build requestId (world.backOff delivery seconds) := by
  refine sound.marks (payloads_updateWhere fun _ => rfl) rfl rfl
    (fun other inside => List.mem_of_mem_erase inside) ?_
  intro snapshot inside done named
  rcases mem_updateWhere.mp inside with ⟨old, oldInside, -, rfl⟩ | ⟨oldInside, -⟩
  · exact sound.published old oldInside done named
  · exact sound.published snapshot oldInside done named

theorem Sound.republish (sound : Sound build requestId world) (publishedAfter : Timestamp) :
    Sound build requestId (world.republishOutbox publishedAfter) := by
  refine sound.marks (payloads_updateWhere fun _ => rfl) rfl rfl (fun _ => id) ?_
  intro snapshot inside done named
  rcases mem_updateWhere.mp inside with ⟨old, -, -, rfl⟩ | ⟨oldInside, -⟩
  · exact absurd rfl done
  · exact sound.published snapshot oldInside done named

/-- A new version is above every earlier one, and not published. -/
theorem Sound.emit {snapshot : Snapshot} (sound : Sound build requestId world)
    (built : snapshot.payload =
      projectionOf build snapshot.payload.requestId snapshot.payload.version)
    (newer : ∀ row ∈ world.outbox, row.payload.requestId = snapshot.payload.requestId →
      row.payload.version < snapshot.payload.version) (unpublished : snapshot.publishedAt = none) :
    Sound build requestId { world with outbox := world.outbox ++ [snapshot] } := by
  have payloads : World.payloads { world with outbox := world.outbox ++ [snapshot] } =
      world.payloads ++ [snapshot.payload] := List.map_append
  have grows : ∀ payload ∈ world.payloads, payload ∈ world.payloads ++ [snapshot.payload] :=
    fun payload member => List.mem_append_left _ member
  refine
    { emitted := ?_
      rising := ?_
      held := fun delivery member => payloads ▸ grows _ (sound.held delivery member)
      roots := ?_
      replies := ?_
      applied := sound.applied
      published := ?_
      answered := sound.answered
      present := sound.present }
  · rw [payloads]
    intro payload member
    rcases mem_inserted.mp member with old | rfl
    · exact sound.emitted payload old
    · exact built
  · rw [payloads]
    refine List.pairwise_append.mpr ⟨sound.rising, List.pairwise_singleton _ _, ?_⟩
    intro payload member last new
    rw [List.mem_singleton.mp new]
    obtain ⟨row, inside, rfl⟩ := List.mem_map.mp member
    exact newer row inside
  · rw [payloads]
    intro row member has
    obtain ⟨payload, inside, shown⟩ := sound.roots row member has
    exact ⟨payload, grows payload inside, shown⟩
  · rw [payloads]
    intro row member has
    obtain ⟨payload, inside, answered⟩ := sound.replies row member has
    exact ⟨payload, grows payload inside, answered⟩
  · intro row member done named
    rcases List.mem_append.mp member with old | new
    · exact sound.published row old done named
    · rw [List.mem_singleton.mp new] at done
      exact absurd unpublished done

theorem selected?_mem {snapshot : Snapshot} (selected : world.selected? = some snapshot) :
    snapshot ∈ world.outbox ∧ world.Selectable snapshot := by
  have member := (List.perm_insertionSort Snapshot.Before _).mem_iff.mp (List.mem_of_head? selected)
  rw [List.mem_filter, decide_eq_true_eq] at member
  exact member

theorem Sound.retain
    {other : Uuid} (sound : Sound build requestId world) (apart : other ≠ requestId) :
    Sound build requestId (world.retain other) := by
  unfold World.retain Tables.retainThread
  split
  · rename_i tables archived
    split at archived
    · cases archived
    · split at archived
      · cases archived
        exact sound.calm rfl rfl (calm_of_same (same_moved apart)) fun delivery member =>
          ⟨sound.held delivery member, fun _ => member⟩
      · cases archived
  · exact sound
  · exact sound

theorem Sound.effect (steady : Steady build) (sound : Sound build requestId world) (step : Step)
    (kept : step ≠ .retain requestId) :
    Sound build requestId (world.effect build step) := by
  have held : ∀ delivery ∈ world.deliveries, delivery.snapshot.payload ∈ world.payloads ∧
      (delivery.stage = .applied → delivery ∈ world.deliveries) :=
    fun delivery member => ⟨sound.held delivery member, fun _ => member⟩
  cases step with
  | writeDispatchOutbox id other version state =>
    dsimp only [World.effect]
    split
    · rename_i fresh
      exact sound.emit rfl fresh.2 rfl
    · exact sound
  | recoveryEvent => exact sound.calm rfl rfl (.refl _ _) held
  | take =>
    dsimp only [World.effect]
    cases found : world.selected? with
    | none => exact sound
    | some snapshot =>
      refine sound.calm rfl rfl (.refl _ _) fun delivery member => ?_
      rcases mem_inserted.mp member with old | rfl
      · exact held delivery old
      · exact ⟨List.mem_map_of_mem (selected?_mem found).1, fun done => by cases done⟩
  | fail delivery =>
    dsimp only [World.effect]
    split
    · rename_i taken
      refine sound.calm rfl rfl (.refl _ _) fun other inside => ?_
      rcases mem_staged inside with old | rfl
      · exact held other old
      · exact ⟨sound.held delivery taken.1, fun done => by cases done⟩
    · exact sound
  | mark delivery =>
    dsimp only [World.effect]
    split
    · rename_i done
      exact sound.mark done.1 done.2.1
    · exact sound
  | backOff delivery seconds =>
    dsimp only [World.effect]
    split
    · exact sound.backOff seconds
    · exact sound
  | crash delivery =>
    exact sound.calm rfl rfl (.refl _ _) fun other inside =>
      held other (List.mem_of_mem_erase inside)
  | republishOutbox publishedAfter => exact sound.republish publishedAfter
  | recoverForgottenReplyReads before ids =>
    refine sound.calm rfl rfl
      (@calm_updateHot requestId _ _ Message.readable (fun _ => rfl) ?_ fun _ => rfl) held
    exact fun row matched => (of_decide_eq_true matched).2.1
  | read id reading =>
    refine sound.calm rfl rfl (@calm_updateHot requestId _ _ _
      (reading.change_id world.now) ?_ (reading.change_managed world.now)) held
    exact fun row matched => (of_decide_eq_true matched).2.1
  | list other cutoff =>
    dsimp only [World.effect]
    split
    · exact sound.calm rfl rfl (.refl _ _) held
    · exact sound
  | retain other =>
    dsimp only [World.effect]
    split
    · exact sound.retain fun same => kept (congrArg Step.retain same)
    · exact sound
  | push row =>
    dsimp only [World.effect]
    split
    · rename_i ordinary
      exact sound.calm rfl rfl (calm_of_same (same_insertHot ordinary.1)) held
    · exact sound
  | wait => exact sound.calm rfl rfl (.refl _ _) held
  | _ =>
    dsimp only [World.effect]
    split
    · rename_i taken
      exact sound.apply steady taken.1
    · exact sound

theorem Sound.execute (steady : Steady build) (sound : Sound build requestId world) (step : Step)
    (kept : step ≠ .retain requestId) :
    Sound build requestId (execute build world step) := by
  have after := sound.effect steady step kept
  exact after.calm rfl rfl (.refl _ _) fun delivery member =>
    ⟨after.held delivery member, fun _ => member⟩

theorem sound_initial : Sound build requestId World.initial where
  emitted := List.forall_mem_nil _
  rising := List.Pairwise.nil
  held := List.forall_mem_nil _
  roots := List.forall_mem_nil _
  replies := List.forall_mem_nil _
  applied := List.forall_mem_nil _
  published := List.forall_mem_nil _
  answered := Nat.zero_le 1
  present := fun member => absurd member List.not_mem_nil

/-! ## Messages over a run -/

/-- The roots of the request live on, at no lower version. -/
def Raised (requestId : Uuid) (world later : World) : Prop :=
  ∀ row ∈ world.tables.hot, row.Has requestId .root →
    ∃ row' ∈ later.tables.hot, row'.Follows row

theorem Raised.refl (requestId : Uuid) (world : World) : Raised requestId world world :=
  fun row member _ => ⟨row, member, .refl row⟩

theorem Raised.trans {first second third : World} (earlier : Raised requestId first second)
    (later : Raised requestId second third) :
    Raised requestId first third := by
  intro row member has
  obtain ⟨row', member', follows⟩ := earlier row member has
  obtain ⟨row'', member'', follows'⟩ := later row' member' (follows.has has)
  exact ⟨row'', member'', follows'.trans follows⟩

theorem Calm.raised (calm : Calm requestId world.tables.hot world'.tables.hot) :
    Raised requestId world world' :=
  fun row member has => ⟨row, (calm.roots row has).mpr member, .refl row⟩

/-- What a step may do to the replies of a request: a reader takes them further, and a
claim that was forgotten is taken back; nothing else changes them. -/
def RepliesKept (requestId : Uuid) (step : Step) (world later : World) : Prop :=
  ∀ row ∈ world.tables.hot, row.Has requestId .reply →
    row ∈ later.tables.hot ∨ (∃ id reading, step = .read id reading) ∨
      (∃ before ids, step = .recoverForgottenReplyReads before ids) ∧
        row.status = .claimed ∧ row.readable ∈ later.tables.hot

/-- Both, for one step. -/
structure Mild (requestId : Uuid) (step : Step) (world later : World) : Prop where
  raised : Raised requestId world later
  replies : RepliesKept requestId step world later

theorem mild_of_same {step : Step} (same : ∀ row : Message, row.Of requestId →
      (row ∈ world'.tables.hot ↔ row ∈ world.tables.hot)) :
    Mild requestId step world world' where
  raised := (calm_of_same same).raised
  replies := fun row member has => .inl ((same row (Message.of_of_has has)).mpr member)

theorem mild_effect (build : Uuid → Nat → Built) (world : World) (step : Step)
    (kept : step ≠ .retain requestId) :
    Mild requestId step world (world.effect build step) := by
  have change := tableChange build world step
  generalize world.effect build step = later at change
  generalize same : later.tables = tables at change
  cases change with
  | kept => exact mild_of_same fun _ _ => by rw [same]
  | @applied delivery _ _ _ applied =>
    refine ⟨fun row member _ => ?_, fun row member has => .inl ?_⟩
    · exact same ▸ exists_apply applied member
    · refine same ▸ mem_apply_of_not_root applied member ?_
      obtain ⟨managed, found, -, role⟩ := has
      exact fun root => Message.Has.not_root_of_isReply ⟨managed, found, role⟩ root
  | @read id reading isRead =>
    have calm : Calm requestId world.tables.hot later.tables.hot := same ▸
      @calm_updateHot requestId _ _ _ (reading.change_id world.now)
        (fun row matched => (of_decide_eq_true matched).2.1) (reading.change_managed world.now)
    exact ⟨calm.raised, fun row member has => .inr (.inl ⟨id, reading, isRead⟩)⟩
  | @recovered before ids isRecovery =>
    have calm : Calm requestId world.tables.hot later.tables.hot := same ▸
      @calm_updateHot requestId _ _ Message.readable (fun _ => rfl)
        (fun row matched => (of_decide_eq_true matched).2.1) fun _ => rfl
    refine ⟨calm.raised, fun row member has => ?_⟩
    rw [same]
    by_cases matched : row.id ∈ ids ∧ row.IsReply ∧ row.ClaimedBefore before
    · exact .inr (.inr ⟨⟨before, ids, isRecovery⟩, matched.2.2.1,
        mem_updateWhere.mpr (.inl ⟨row, member, decide_eq_true matched, rfl⟩)⟩)
    · exact .inl (mem_updateWhere.mpr (.inr ⟨member, decide_eq_false matched⟩))
  | @moved other isRetention _ =>
    refine mild_of_same fun row ofRequest => ?_
    rw [same]
    exact same_moved (fun equal => kept (isRetention.trans (congrArg Step.retain equal))) row ofRequest
  | pushed ordinary _ =>
    refine mild_of_same fun row ofRequest => ?_
    rw [same]
    exact same_insertHot ordinary row ofRequest

theorem run_raised {steps : List Step} (kept : ∀ step ∈ steps, step ≠ .retain requestId)
    (world : World) :
    Raised requestId world (run (execute build) world steps) := by
  induction steps generalizing world with
  | nil => exact .refl requestId world
  | cons step rest ih =>
    have first : Raised requestId world (execute build world step) :=
      (mild_effect build world step (kept step List.mem_cons_self)).raised
    exact first.trans (ih (fun other member => kept other (List.mem_cons_of_mem _ member)) _)

/-! ## Selection -/

theorem before_total (first second : Snapshot) : first.Before second ∨ second.Before first := by
  rcases Nat.lt_trichotomy first.nextAttemptAt second.nextAttemptAt with less | same | more
  · exact .inl (.inl less)
  · rcases Nat.le_total first.id second.id with le | ge
    · exact .inl (.inr ⟨same, le⟩)
    · exact .inr (.inr ⟨same.symm, ge⟩)
  · exact .inr (.inl more)

theorem before_trans {first second third : Snapshot} (earlier : first.Before second)
    (later : second.Before third) :
    first.Before third := by
  rcases earlier with less | ⟨same, le⟩
  · rcases later with less' | ⟨same', -⟩
    · exact .inl (less.trans less')
    · exact .inl (same' ▸ less)
  · rcases later with less' | ⟨same', le'⟩
    · exact .inl (same ▸ less')
    · exact .inr ⟨same.trans same', Nat.le_trans le le'⟩

/-- The row that is taken is one of those that come first. -/
theorem selected?_before {snapshot : Snapshot} (member : snapshot ∈ world.outbox)
    (selectable : world.Selectable snapshot) :
    ∃ taken, world.selected? = some taken ∧ taken.Before snapshot := by
  have total : Std.Total Snapshot.Before := ⟨before_total⟩
  have transitive : IsTrans Snapshot Snapshot.Before := ⟨fun _ _ _ => before_trans⟩
  have sorted := List.pairwise_insertionSort Snapshot.Before
    (world.outbox.filter fun row => world.Selectable row)
  have among : snapshot ∈ (world.outbox.filter fun row =>
      world.Selectable row).insertionSort Snapshot.Before :=
    (List.mem_insertionSort _).mpr (List.mem_filter.mpr ⟨member, decide_eq_true selectable⟩)
  unfold World.selected?
  cases rows : (world.outbox.filter fun row =>
      world.Selectable row).insertionSort Snapshot.Before with
  | nil =>
    rw [rows] at among
    cases among
  | cons taken rest =>
    refine ⟨taken, rfl, ?_⟩
    rw [rows] at among sorted
    rcases List.mem_cons.mp among with rfl | later
    · exact .inr ⟨rfl, Nat.le_refl _⟩
    · exact (List.pairwise_cons.mp sorted).1 snapshot later

/-- No two rows of a request have one version. -/
theorem Sound.row_unique {first second : Snapshot} (sound : Sound build requestId world)
    (firstMember : first ∈ world.outbox) (secondMember : second ∈ world.outbox)
    (request : first.payload.requestId = second.payload.requestId)
    (version : first.payload.version = second.payload.version) :
    first = second := by
  rcases pairwise_cases (List.pairwise_map.mp sound.rising) firstMember secondMember with
    same | before | after
  · exact same
  · exact absurd (before request) (Nat.not_lt.mpr version.ge)
  · exact absurd (after request.symm) (Nat.not_lt.mpr version.le)

/-! ## Every run -/

/-- What the queue and the outbox say of a request. -/
structure Projected (requestId : Uuid) (world : World) : Prop where
  /-- Its root shows a version that was emitted. -/
  root : ∀ row ∈ world.tables.hot, row.Has requestId .root →
    ∃ payload ∈ world.payloads, payload.requestId = requestId ∧ row.Shows payload
  oneRoot : ∀ first ∈ world.tables.hot, ∀ second ∈ world.tables.hot,
    first.Has requestId .root → second.Has requestId .root → first = second
  /-- Its reply was inserted once at most. -/
  reply : world.answered.count requestId ≤ 1
  oneReply : ∀ first ∈ world.tables.hot, ∀ second ∈ world.tables.hot,
    first.Has requestId .reply → second.Has requestId .reply → first = second
  /-- What is marked has arrived. -/
  published : ∀ snapshot ∈ world.outbox, snapshot.publishedAt ≠ none →
    snapshot.payload.requestId = requestId →
      AtLeast world.tables.hot requestId snapshot.payload.version
  /-- Whatever the older rows are, a projector finds the newest one when it is due, or
  a row of another request that was due before. -/
  unblocked : ∀ snapshot ∈ world.outbox, snapshot.payload.requestId = requestId →
    Newest world.outbox snapshot → snapshot.publishedAt = none →
      snapshot.nextAttemptAt ≤ world.now →
        (∀ delivery ∈ world.deliveries, delivery.snapshot.id ≠ snapshot.id) →
          ∃ taken, world.selected? = some taken ∧ taken.Before snapshot ∧
            (taken.payload.requestId = requestId → taken = snapshot)

theorem Sound.projected (steady : Steady build) (sound : Sound build requestId world) :
    Projected requestId world where
  root := sound.roots
  oneRoot := by
    intro first firstMember second secondMember firstHas secondHas
    obtain ⟨payload, emitted, request, shows⟩ := sound.roots first firstMember firstHas
    obtain ⟨other, emitted', request', shows'⟩ := sound.roots second secondMember secondHas
    refine List.inj_on_of_nodup_map world.tables.hotKeys firstMember secondMember ?_
    rw [shows.id, shows'.id, sound.emitted payload emitted, sound.emitted other emitted',
      request, request']
    exact steady.rootId requestId _ _
  reply := sound.answered
  oneReply := by
    intro first firstMember second secondMember firstHas secondHas
    obtain ⟨payload, emitted, request, reply, answer, same⟩ :=
      sound.replies first firstMember firstHas
    obtain ⟨other, emitted', request', reply', answer', same'⟩ :=
      sound.replies second secondMember secondHas
    refine List.inj_on_of_nodup_map world.tables.hotKeys firstMember secondMember ?_
    rw [sound.emitted payload emitted, request] at answer
    rw [sound.emitted other emitted', request'] at answer'
    rw [same, same', steady.reply requestId _ _ reply answer reply' answer']
  published := sound.published
  unblocked := by
    intro snapshot member named newest unpublished due unlocked
    obtain ⟨taken, selected, first⟩ := selected?_before member ⟨unpublished, due, newest, unlocked⟩
    refine ⟨taken, selected, first, fun request => ?_⟩
    obtain ⟨takenMember, -, -, takenNewest, -⟩ := selected?_mem selected
    have same := request.trans named.symm
    refine sound.row_unique takenMember member same ?_
    exact Nat.le_antisymm (newest taken takenMember same) (takenNewest snapshot member same.symm)

/-- Over any run without a retention of its thread, a request is projected in every
state, its root is never taken back to an earlier version, and no step but a reader's
or the recovery of a forgotten claim changes its reply. -/
theorem projection_converges (build : Uuid → Nat → Built) (steady : Steady build) (requestId : Uuid)
    (steps : List Step) (kept : .retain requestId ∉ steps) :
    (∀ earlier, earlier <+: steps →
      Projected requestId (run (execute build) World.initial earlier)) ∧
      (∀ earlier later, earlier <+: later → later <+: steps →
        Raised requestId (run (execute build) World.initial earlier)
          (run (execute build) World.initial later)) ∧
        ∀ earlier step, earlier ++ [step] <+: steps →
          RepliesKept requestId step (run (execute build) World.initial earlier)
            (run (execute build) World.initial (earlier ++ [step])) := by
  have apart : ∀ {rest : List Step}, rest <+: steps → ∀ step ∈ rest,
      step ≠ .retain requestId :=
    fun isPrefix step member same => kept (same ▸ isPrefix.subset member)
  refine ⟨fun earlier isPrefix => ?_, ?_, ?_⟩
  · have sound : Sound build requestId (run (execute build) World.initial earlier) :=
      run_invariant (fun _ step sound kept => sound.execute steady step kept) sound_initial
        (everyStep_of_forall (fun _ step member => apart isPrefix step member) _)
    exact sound.projected steady
  · rintro earlier _ ⟨rest, rfl⟩ isPrefix
    rw [run_append]
    have later : ∀ step ∈ rest, step ≠ .retain requestId :=
      fun step member => apart isPrefix step (List.mem_append_right _ member)
    generalize run (execute build) World.initial earlier = world
    exact run_raised later world
  · intro earlier step isPrefix
    rw [run_append, run_cons, run_nil]
    have last : step ≠ .retain requestId :=
      apart isPrefix step (List.mem_append_right _ (List.mem_singleton_self step))
    exact (mild_effect build _ step last).replies

namespace DeliveryRuns

/-- Version 2 has the answer. -/
def answering (requestId version : Nat) : Built where
  root :=
    { id := 2 * requestId
      identity := ⟨"task", "mac", "jp", "scrum4me-dispatch", "request", none⟩
      body := "Question"
      metaText := "meta"
      status := if version < 2 then .claimed else .done }
  reply :=
    if version < 2 then none
    else some
      { id := 2 * requestId + 1
        identity := ⟨"result", "scrum4me-dispatch", "request", "mac", "jp",
          some (2 * requestId)⟩
        body := "Answer"
        metaText := "meta" }

theorem steady_answering : Steady answering where
  rootId := fun _ _ _ => rfl
  rootIdentity := fun _ _ _ => rfl
  reply := by
    intro requestId first second reply member other member'
    unfold answering at member member'
    dsimp only at member member'
    split at member
    · cases member
    · split at member'
      · cases member'
      · exact (Option.some.inj member).symm.trans (Option.some.inj member')

/-- A row that was written then, with these attempts. -/
def snapshot (version createdAt attempts nextAttemptAt : Nat) : Snapshot where
  id := version
  payload := projectionOf answering 7 version
  state := if version < 2 then .running else .succeeded
  createdAt := createdAt
  publishedAt := none
  attempts := attempts
  nextAttemptAt := nextAttemptAt

def delivery (stage : Stage) (version createdAt attempts nextAttemptAt : Nat) : Delivery where
  snapshot := snapshot version createdAt attempts nextAttemptAt
  stage := stage

/-- The first version is applied by a projector that crashes; the second is taken by two
more, of which one does not hear of its commit. -/
def steps : List Step :=
  [.writeDispatchOutbox 1 7 1 .running, .take, .apply (delivery .taken 1 0 0 0),
    .writeDispatchOutbox 2 7 2 .succeeded, .crash (delivery .applied 1 0 0 0),
    .take, .lose (delivery .taken 2 3 0 3), .backOff (delivery .failed 2 3 0 3) 1,
    .wait 1, .take, .apply (delivery .taken 2 3 1 8), .mark (delivery .applied 2 3 1 8),
    .republishOutbox 0, .take, .apply (delivery .taken 2 3 0 13)]

end DeliveryRuns

open DeliveryRuns in
/-- After two deliveries of the second version, with the third under way, there are one
root and one reply, which was announced once. -/
theorem projection_converges_crashed :
    (run (execute answering) World.initial steps).tables.hot.map (fun row => (row.id, row.status)) =
        [(14, .done), (15, .pending)] ∧
      (run (execute answering) World.initial steps).answered = [7] ∧
      ((run (execute answering) World.initial steps).deliveries = [delivery .applied 2 3 0 13] ∧
        ∀ earlier, earlier <+: steps →
          Projected 7 (run (execute answering) World.initial earlier)) :=
  ⟨by decide +kernel, by decide +kernel, by decide +kernel,
    (projection_converges answering steady_answering 7 steps (by decide)).1⟩

end Projector
end Scrum4Me
